import FormulaTable.Proofs.Number.Integer

/-!
# Opposites of doubles

Rounding does not look at the sign: the product of an opposite is the opposite of the product, and a
number and its opposite are rounded to opposite whole numbers.
-/

namespace FormulaTable.Number

open Float.Model (UnpackedFloat Format)
open Float.Model.UnpackedFloat

variable {x y : Float} {m : Nat} {e : Int}

/-- The opposite of a double denotes the opposite. -/
theorem exact_opposite (x : Float) : exact (-x) = UnpackedFloat.neg (exact x) := by
  cases hx : exact x with
  | infinity s => exact exact_neg_of_infinity hx
  | notANumber =>
      show exact (.ofModel (.pack (UnpackedFloat.neg (exact x)))) = _
      rw [hx]
      rfl
  | zero s | finite s m e hm =>
      rw [← hx]
      refine exact_neg ?_
      rw [isFinite_iff, hx]
      rfl

theorem neg_signed (s : Sign) (m : Nat) (e : Int) :
    UnpackedFloat.neg (signed s m e) = signed (-s) m e := by
  unfold signed
  split
  · rfl
  · rfl

/-! ## Rounding -/

/-- A number and its opposite are rounded to opposite doubles. -/
theorem Rounded.neg {q : ℚ} (h : Rounded q m e) (s : Sign) :
    -Float.ofModel (.pack (signed s m e)) = .ofModel (.pack (signed (-s) m e)) := by
  refine exact_injective ?_
  rw [exact_opposite]
  unfold signed
  by_cases hm : m = 0
  · rw [dif_pos hm, dif_pos hm]
    cases s <;> rfl
  · rw [dif_neg hm, dif_neg hm]
    have hcanonical : Canonical m e := ⟨Nat.pos_of_ne_zero hm, h.lt, h.least, h.full⟩
    rcases le_or_gt e 971 with he | he
    · rw [exact_pack hcanonical he, exact_pack hcanonical he]
      rfl
    · rw [exact_pack_of_lt hcanonical.pos he, exact_pack_of_lt hcanonical.pos he]
      rfl

theorem roundWithAccuracy_neg (s : Sign) (m : Nat) (e : Int) (accuracy : Accuracy) :
    roundWithAccuracy .binary64 (-s) m e accuracy =
      UnpackedFloat.neg (roundWithAccuracy .binary64 s m e accuracy) := by
  unfold roundWithAccuracy
  dsimp only
  split
  · rfl
  · rfl

theorem round_neg (s : Sign) (m : Nat) (e : Int) : UnpackedFloat.round .binary64 (-s) m e =
    UnpackedFloat.neg (UnpackedFloat.round .binary64 s m e) :=
  roundWithAccuracy_neg s _ _ _

theorem nearest_neg (s : Sign) (m : Nat) (e : Int) : nearest (-s) m e = -nearest s m e := by
  obtain ⟨m', e', hround, hrounded⟩ := round_eq s m e
  unfold nearest
  rw [round_neg, hround, neg_signed, hrounded.neg]

/-! ## Operations -/

/-- The product of an opposite. -/
theorem mul_neg_left (hx : x.isFinite = true) (hy : y.isFinite = true) : -x * y = -(x * y) := by
  show Float.ofModel (.pack (UnpackedFloat.mul .binary64 (exact (-x)) (exact y))) =
    -.ofModel (.pack (UnpackedFloat.mul .binary64 (exact x) (exact y)))
  rw [exact_opposite]
  have hmul (s s' : Sign) : -s * s' = -(s * s') := by cases s <;> cases s' <;> rfl
  have hzero (s s' : Sign) : Float.ofModel (.pack (.zero (-s * s'))) =
      -.ofModel (.pack (.zero (s * s'))) := by cases s <;> cases s' <;> rfl
  rcases zero_or_finite hx with ⟨s, hs⟩ | ⟨s, m, e, hm, hs⟩
  · rcases zero_or_finite hy with ⟨s', hs'⟩ | ⟨s', n, f, hn, hs'⟩
    · rw [hs, hs']
      exact hzero s s'
    · rw [hs, hs']
      exact hzero s s'
  · rcases zero_or_finite hy with ⟨s', hs'⟩ | ⟨s', n, f, hn, hs'⟩
    · rw [hs, hs']
      exact hzero s s'
    · obtain ⟨m', e', hround, hrounded⟩ := @mul_finite_eq m e hm n f hn s s'
        ((canonical_of_exact hs).bits_mul (canonical_of_exact hs'))
      have hneg : UnpackedFloat.mul .binary64 (.finite (-s) m e hm) (.finite s' n f hn) =
          UnpackedFloat.neg (signed (s * s') m' e') := by
        rw [← hround]
        show roundWithAccuracy .binary64 (-s * s') (m * n) (e + f) .exact = _
        rw [hmul]
        exact roundWithAccuracy_neg _ _ _ _
      rw [hs, hs', hround, hrounded.neg, ← neg_signed, ← hneg]
      rfl

/-- The opposite is rounded to the opposite whole number. -/
theorem roundHalfAway_neg (x : Float) : roundHalfAway (-x) = -roundHalfAway x := by
  unfold roundHalfAway toWhole
  rw [exact_opposite]
  cases hx : exact x with
  | infinity s | notANumber | zero s => rfl
  | finite s m e hm =>
      cases e with
      | ofNat k => rfl
      | negSucc k => exact nearest_neg s _ 0

/-- The whole part of the opposite, other than at the bounds of the integers. -/
theorem toInt64_neg (h : (toInt64 x).natAbs < 2 ^ 62) : toInt64 (-x) = -toInt64 x := by
  cases hx : exact x with
  | infinity s =>
      have hgreat : Great 62 x := .inl ⟨s, hx⟩
      exact absurd (hgreat.le_toInt64 le_rfl) (Nat.not_le.mpr h)
  | notANumber | zero s =>
      unfold toInt64
      rw [exact_opposite, hx]
      rfl
  | finite s m e hm =>
      have hneg : exact (-x) = .finite (-s) m e hm := by rw [exact_opposite, hx]; rfl
      obtain ⟨n, hn, hle, hlt⟩ := toInt64_of_exact hx
      obtain ⟨n', hn', hle', hlt'⟩ := toInt64_of_exact hneg
      have hfloor : n < n' + 1 := by exact_mod_cast hle.trans_lt hlt'
      have hfloor' : n' < n + 1 := by exact_mod_cast hle'.trans_lt hlt
      obtain rfl : n = n' := by omega
      rw [neg_apply] at hn'
      omega

end FormulaTable.Number
