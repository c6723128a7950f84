import FormulaTable.Proofs.Number.WholePart

/-!
# Nearest doubles

A double is nearest to a number if none of the finite doubles lies nearer to it, and has an even mantissa
where another one is as near. A decimal is read as the nearest double, with the sign that stands before
it.
-/

namespace FormulaTable.Number

open Float.Model (UnpackedFloat)
open Float.Model.UnpackedFloat

variable {x y z : Float} {q : ℚ} {s : Sign} {m : Nat} {e : Int}

/-- Among the finite doubles `y` is the nearest to `q`. -/
structure Nearest (y : Float) (q : ℚ) : Prop where
  isFinite : y.isFinite = true
  near : ∀ z : Float, z.isFinite = true → |position y - q| ≤ |position z - q|
  even : ∀ z : Float, z.isFinite = true → |position z - q| = |position y - q| →
    position z = position y ∨ EvenMantissa y

/-! ## Signs -/

theorem position_signed_zero (s : Sign) : position (.ofModel (.pack (.zero s))) = 0 := by
  cases s <;> rfl

/-- A finite double that is not below zero has no sign, unless it is zero. -/
theorem zero_or_positive (hx : x.isFinite = true) (hpos : 0 ≤ position x) :
    (∃ s, exact x = .zero s) ∨ ∃ m e hm, exact x = .finite .positive m e hm := by
  rcases zero_or_finite hx with hzero | ⟨s, m, e, hm, hs⟩
  · exact .inl hzero
  · cases s with
    | positive => exact .inr ⟨m, e, hm, hs⟩
    | negative =>
        have hlt : (0 : ℚ) < m * 2 ^ e := by positivity
        rw [position, hs] at hpos
        exact absurd hpos (not_le.mpr (neg_neg_of_pos hlt))

theorem position_mul_nonneg (hx : x.isFinite = true) (hy : y.isFinite = true)
    (hxpos : 0 ≤ position x) (hypos : 0 ≤ position y) : 0 ≤ position (x * y) := by
  show 0 ≤ position (.ofModel (.pack (UnpackedFloat.mul .binary64 (exact x) (exact y))))
  rcases zero_or_positive hx hxpos with ⟨s, hs⟩ | ⟨m, e, hm, hs⟩
  · rcases zero_or_positive hy hypos with ⟨s', hs'⟩ | ⟨n, f, hn, hs'⟩
    · rw [hs, hs']
      exact (position_signed_zero _).ge
    · rw [hs, hs']
      exact (position_signed_zero _).ge
  · rcases zero_or_positive hy hypos with ⟨s', hs'⟩ | ⟨n, f, hn, hs'⟩
    · rw [hs, hs']
      exact (position_signed_zero _).ge
    · obtain ⟨m', e', hround, hrounded⟩ := @mul_finite_eq m e hm n f hn .positive .positive
        ((canonical_of_exact hs).bits_mul (canonical_of_exact hs'))
      rw [hs, hs', hround]
      exact hrounded.position_nonneg

theorem position_div_nonneg (hx : x.isFinite = true) (hy : y.isFinite = true)
    (hxpos : 0 ≤ position x) (hypos : 0 < position y) : 0 ≤ position (x / y) := by
  show 0 ≤ position (.ofModel (.pack (UnpackedFloat.div .binary64 (exact x) (exact y))))
  rcases zero_or_positive hy hypos.le with ⟨s', hs'⟩ | ⟨n, f, hn, hs'⟩
  · rw [position, hs', positionOf_zero] at hypos
    exact absurd hypos (lt_irrefl 0)
  · rcases zero_or_positive hx hxpos with ⟨s, hs⟩ | ⟨m, e, hm, hs⟩
    · rw [hs, hs']
      exact (position_signed_zero _).ge
    · obtain ⟨m', e', hround, hrounded⟩ := @div_finite_eq m e hm n f hn .positive .positive
      rw [hs, hs', hround]
      exact hrounded.position_nonneg

/-- What is rounded from a number that is not negative is not negative. -/
theorem position_normalize_nonneg {z : Int} (hz : 0 ≤ z) (e : Int) :
    0 ≤ position (.ofModel (.pack (UnpackedFloat.normalize .binary64 z e .positive))) := by
  unfold UnpackedFloat.normalize
  split
  · next hcompare => exact absurd (Int.compare_eq_lt.mp hcompare) (Int.not_lt.mpr hz)
  · exact (position_signed_zero _).ge
  · obtain ⟨m', e', hround, hrounded⟩ := round_eq .positive z.toNat e
    rw [hround]
    exact hrounded.position_nonneg

theorem position_toFloat_nonneg (n : UInt64) : 0 ≤ position n.toFloat :=
  position_normalize_nonneg (Int.natCast_nonneg n.toNat) 0

/-- The powers of ten in the table are positive. -/
theorem table_pos : ∀ k : Fin 23, (0 : Float) < Float.exactlyRepresentablePowersOfTen[k] := by
  decide

theorem position_ofScientific_nonneg (m : Nat) (e : Int) :
    0 ≤ position (.ofModel (.pack (UnpackedFloat.ofScientific .binary64 m e))) := by
  rcases Nat.eq_zero_or_pos m with rfl | hm
  · exact (position_signed_zero .positive).ge
  rcases ofScientific_cases hm e with ⟨hinfinity, -⟩ | ⟨hzero, -⟩ | ⟨m', e', hround, hrounded⟩
  · rw [hinfinity]
    exact overflow_pos.le
  · rw [hzero]
    exact (position_signed_zero .positive).ge
  · rw [hround]
    exact hrounded.position_nonneg

/-- The double of a decimal is not negative. -/
theorem Decimal.position_toFloat_nonneg (d : Decimal) : 0 ≤ position d.toFloat := by
  have hcount := isFinite_toFloat d.coefficient.toUInt64
  have hcountPos := Number.position_toFloat_nonneg d.coefficient.toUInt64
  obtain ⟨k, hk⟩ : ∃ k, d.exponent.natAbs = k := ⟨_, rfl⟩
  unfold toFloat Float.ofScientific
  rw [hk]
  split
  · next hsmall =>
    -- one product or quotient of a count and a power of ten
    have hpower := (lt_iff_position.mp (table_pos ⟨k, by omega⟩)).2.2
    have hfinite := (magnitude_of_isWhole (isWhole_table ⟨k, by omega⟩)).1
    split
    · exact position_div_nonneg hcount hfinite hcountPos hpower
    · exact position_mul_nonneg hcount hfinite hcountPos hpower.le
  · exact position_ofScientific_nonneg _ _

/-! ## Nearest doubles -/

/-- The magnitude of a finite double as a number of 53 bits times a power of two. -/
theorem exists_magnitude_eq (hx : x.isFinite = true) : ∃ (n : Nat) (f : Int), n ≤ 2 ^ 53 ∧ -1074 ≤ f ∧
    magnitude x = n * 2 ^ f := by
  rcases zero_or_finite hx with ⟨s, hs⟩ | ⟨s, m, e, hm, hs⟩
  · exact ⟨0, 0, by norm_num, by decide, by rw [magnitude_of_zero hs, Nat.cast_zero, zero_mul]⟩
  · have hcanonical := canonical_of_exact hs
    exact ⟨m, e, hcanonical.lt.le, hcanonical.least, magnitude_of_exact hs⟩

/-- What is rounded from a number, and not negative, is the nearest double. -/
theorem Rounds.nearest (h : Rounds y q) (hq : 0 ≤ q) (hy : y.isFinite = true)
    (hpos : 0 ≤ position y) : Nearest y q := by
  have hposition : position y = magnitude y := by rw [magnitude_eq_abs hy, abs_of_nonneg hpos]
  -- a double on the other side of zero is farther away than its opposite
  have hside (z : Float) (hz : z.isFinite = true) : |magnitude z - q| ≤ |position z - q| := by
    have hle := abs_abs_sub_abs_le (position z) q
    rwa [abs_of_nonneg hq, ← magnitude_eq_abs hz] at hle
  have hnear (z : Float) (hz : z.isFinite = true) : |magnitude y - q| ≤ |magnitude z - q| := by
    obtain ⟨n, f, hn, hf, hmagnitude⟩ := exists_magnitude_eq hz
    rw [hmagnitude]
    exact h.near hy n f hn hf
  refine ⟨hy, fun z hz => ?_, fun z hz heq => ?_⟩
  · rw [hposition]
    exact (hnear z hz).trans (hside z hz)
  · rw [hposition] at heq ⊢
    have hsame : |magnitude z - q| = |magnitude y - q| :=
      le_antisymm ((hside z hz).trans heq.le) (hnear z hz)
    obtain ⟨n, f, hn, hf, hmagnitude⟩ := exists_magnitude_eq hz
    have heven := h.even hy n f hn hf
    rw [← hmagnitude] at heven
    refine (heven hsame).imp_left fun hz' => ?_
    rw [magnitude_eq_abs hz] at hz'
    rcases abs_choice (position z) with hsign | hsign
    · rw [← hsign, hz']
    · -- its opposite would be as near only if both were zero
      have hopposite : position z = -magnitude y := by linarith
      rw [hopposite] at heq
      have hzero : magnitude y = 0 := by
        rcases abs_eq_abs.mp heq with hsame | hsame
        · linarith
        · have hq0 : q = 0 := by linarith
          have hle := hnear 0 rfl
          have hmagnitude : magnitude 0 = 0 := magnitude_of_zero (s := .positive) rfl
          rw [hq0, sub_zero, sub_zero, hmagnitude, abs_zero] at hle
          exact abs_nonpos_iff.mp hle
      rw [hopposite, hzero, neg_zero]

theorem EvenMantissa.neg (h : EvenMantissa y) : EvenMantissa (-y) := by
  intro s m e hm hx
  rw [exact_opposite] at hx
  cases hy : exact y with
  | finite s' m' e' hm' =>
      rw [hy] at hx
      cases hx
      exact h s' m e hm hy
  | zero | infinity | notANumber =>
      rw [hy] at hx
      cases hx

/-- The opposite double is nearest to the opposite number. -/
theorem Nearest.neg (h : Nearest y q) : Nearest (-y) (-q) := by
  have hy : |position (-y) - -q| = |position y - q| := by
    rw [position_neg, ← abs_neg]
    ring_nf
  have hz (z : Float) : |position z - -q| = |position (-z) - q| := by
    rw [position_neg, ← abs_neg]
    ring_nf
  refine ⟨isFinite_neg h.isFinite, fun z hfinite => ?_, fun z hfinite heq => ?_⟩
  · rw [hy, hz]
    exact h.near (-z) (isFinite_neg hfinite)
  · rw [hy, hz] at heq
    refine (h.even (-z) (isFinite_neg hfinite) heq).imp (fun hsame => ?_) EvenMantissa.neg
    rw [position_neg] at hsame ⊢
    linarith

theorem nearest_zero : Nearest 0 0 := by
  refine ⟨rfl, fun z _ => ?_, fun _ _ _ => .inr nofun⟩
  rw [position_zero, sub_zero, abs_zero]
  exact abs_nonneg _

theorem Decimal.value_nonneg (d : Decimal) : 0 ≤ d.value := by
  unfold value
  positivity

/-- **A decimal after a sign is read as the nearest double.** -/
theorem Decimal.nearest_withSign (d : Decimal) (s : Sign) (h : d.toFloat.isFinite = true) :
    Nearest (withSign s d.toFloat) (signedBy s d.value) := by
  have hnearest := d.rounds.nearest d.value_nonneg h d.position_toFloat_nonneg
  cases s with
  | positive => exact hnearest
  | negative => exact hnearest.neg

/-! ## Distances -/

/-- A number is rounded by half a unit at most, where the unit leaves it at most 53 bits. -/
theorem Rounds.abs_sub_le {f : Int} (h : Rounds x q) (hx : x.isFinite = true) (hq : 0 ≤ q)
    (hf : -1074 ≤ f) (hle : q ≤ 2 ^ 53 * 2 ^ f) : |magnitude x - q| ≤ 2 ^ f / 2 := by
  have hunit : (0 : ℚ) < 2 ^ f := by positivity
  have hnonneg : 0 ≤ q / 2 ^ f + 1 / 2 := by positivity
  obtain ⟨n, hn⟩ : ∃ n, n = ⌊q / 2 ^ f + 1 / 2⌋₊ := ⟨_, rfl⟩
  have hlower := Nat.floor_le hnonneg
  have hupper := Nat.lt_floor_add_one (q / 2 ^ f + 1 / 2)
  rw [← hn] at hlower hupper
  have hbits : n ≤ 2 ^ 53 := by
    have hquotient : q / 2 ^ f ≤ 2 ^ 53 := (div_le_iff₀ hunit).mpr hle
    have hlt : (n : ℚ) < (2 ^ 53 + 1 : Nat) := by
      push_cast
      linarith
    exact Nat.lt_succ_iff.mp (by exact_mod_cast hlt)
  have hdistance : |(n : ℚ) - q / 2 ^ f| ≤ 1 / 2 := abs_le.mpr ⟨by linarith, by linarith⟩
  calc |magnitude x - q|
    _ ≤ |n * 2 ^ f - q| := h.near hx n f hbits hf
    _ = |(n : ℚ) - q / 2 ^ f| * 2 ^ f := by
      rw [← abs_of_pos hunit, ← abs_mul, abs_of_pos hunit, sub_mul, div_mul_cancel₀ _ hunit.ne']
    _ ≤ 2 ^ f / 2 := by linarith [mul_le_mul_of_nonneg_right hdistance hunit.le]

/-- So the nearest double lies within this distance, with either sign. -/
theorem Nearest.abs_sub_le {d : Decimal} {f : Int} (h : Nearest y (signedBy s d.value))
    (hd : d.toFloat.isFinite = true) (hf : -1074 ≤ f) (hle : d.value ≤ 2 ^ 53 * 2 ^ f) :
    |position y - signedBy s d.value| ≤ 2 ^ f / 2 := by
  have hpos := d.position_toFloat_nonneg
  have hdistance : |position d.toFloat - d.value| ≤ 2 ^ f / 2 := by
    have hmagnitude : magnitude d.toFloat = position d.toFloat := by
      rw [magnitude_eq_abs hd, abs_of_nonneg hpos]
    rw [← hmagnitude]
    exact d.rounds.abs_sub_le hd d.value_nonneg hf hle
  refine (h.near _ (d.nearest_withSign s hd).isFinite).trans ?_
  cases s with
  | positive => exact hdistance
  | negative =>
      show |position (-d.toFloat) - -d.value| ≤ _
      rw [position_neg, neg_sub_neg, abs_sub_comm]
      exact hdistance

end FormulaTable.Number
