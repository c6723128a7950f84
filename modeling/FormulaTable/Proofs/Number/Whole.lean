import FormulaTable.Proofs.Number.Operations

/-!
# Whole numbers as doubles

The arithmetic of doubles is exact where the operands and the result are whole numbers with at most
53 significant binary digits: sums, differences, products and quotients are the doubles of the exact
results, and rounding to a whole number changes nothing.
-/

namespace FormulaTable.Number

open Float.Model (UnpackedFloat Format)
open Float.Model.UnpackedFloat

variable {x y : Float} {s : Sign} {m n : Nat} {e f z a b : Int} {hm : 0 < m}

/-! ## Whole doubles -/

/-- A double is read as a whole number. Zero is not the negative zero. -/
inductive Denotes : UnpackedFloat → Int → Prop
  | zero : Denotes (.zero .positive) 0
  | finite {s : Sign} {m : Nat} {e : Int} {hm : 0 < m} {z : Int} (sign : s.apply z.natAbs = z)
      (magnitude : (m * 2 ^ e : ℚ) = z.natAbs) : Denotes (.finite s m e hm) z

/-- The double is a whole number. -/
def Whole (x : Float) (z : Int) : Prop := Denotes (exact x) z

theorem Whole.cases (h : Whole x z) : (exact x = .zero .positive ∧ z = 0) ∨
    ∃ s m e hm, exact x = .finite s m e hm ∧ s.apply z.natAbs = z ∧ (m * 2 ^ e : ℚ) = z.natAbs := by
  unfold Whole at h
  generalize exact x = u at h
  cases h with
  | zero => exact .inl ⟨rfl, rfl⟩
  | finite sign magnitude => exact .inr ⟨_, _, _, _, rfl, sign, magnitude⟩

theorem Whole.isFinite (h : Whole x z) : x.isFinite = true := by
  rw [isFinite_iff]
  rcases h.cases with ⟨hx, -⟩ | ⟨s, m, e, hm, hx, -⟩
  · rw [hx]
    rfl
  · rw [hx]
    rfl

theorem Whole.magnitude_eq (h : Whole x z) : magnitude x = z.natAbs := by
  rcases h.cases with ⟨hx, rfl⟩ | ⟨s, m, e, hm, hx, -, hmagnitude⟩
  · rw [magnitude_of_zero hx]
    rfl
  · rw [magnitude_of_exact hx, hmagnitude]

/-- A number has the positive sign if it is not negative, and zero has both. -/
theorem apply_positive_iff : Sign.positive.apply z.natAbs = z ↔ 0 ≤ z := by
  show (z.natAbs : Int) = z ↔ _
  omega

theorem apply_negative_iff : Sign.negative.apply z.natAbs = z ↔ z ≤ 0 := by
  show -(z.natAbs : Int) = z ↔ _
  omega

/-- The mantissa of a double that is not zero stands for a number that is not zero. -/
theorem natAbs_ne_zero (hm : 0 < m) (h : (m * 2 ^ e : ℚ) = z.natAbs) : z.natAbs ≠ 0 := by
  intro hz
  have hpos : (0 : ℚ) < m * 2 ^ e := by positivity
  rw [h, hz, Nat.cast_zero] at hpos
  exact lt_irrefl 0 hpos

/-- A number in canonical form is told by what it denotes. -/
theorem Canonical.eq_of_mul_eq (hm : Canonical m e) (hn : Canonical n f)
    (h : (m * 2 ^ e : ℚ) = n * 2 ^ f) : m = n ∧ e = f := by
  have hlt : ¬ (e < f ∨ e = f ∧ m < n) := fun hlt => (hm.mul_lt_mul hn hlt).ne h
  have hgt : ¬ (f < e ∨ f = e ∧ n < m) := fun hgt => (hn.mul_lt_mul hm hgt).ne' h
  omega

/-- **A double is told by the whole number that it is.** -/
theorem Whole.unique (hx : Whole x z) (hy : Whole y z) : x = y := by
  refine exact_injective ?_
  rcases hx.cases with ⟨hx', rfl⟩ | ⟨s, m, e, hm, hx', hsign, hmagnitude⟩
  · rcases hy.cases with ⟨hy', -⟩ | ⟨s', n, f, hn, hy', -, hmagnitude⟩
    · rw [hx', hy']
    · exact absurd rfl (natAbs_ne_zero hn hmagnitude)
  · rcases hy.cases with ⟨-, rfl⟩ | ⟨s', n, f, hn, hy', hsign', hmagnitude'⟩
    · exact absurd rfl (natAbs_ne_zero hm hmagnitude)
    · obtain ⟨rfl, rfl⟩ := (canonical_of_exact hx').eq_of_mul_eq (canonical_of_exact hy')
        (hmagnitude.trans hmagnitude'.symm)
      have hz := natAbs_ne_zero hm hmagnitude
      have hs : s = s' := by
        cases s <;> cases s' <;> simp only [Sign.apply] at hsign hsign' ⊢ <;> omega
      rw [hx', hy', hs]

/-! ## Numbers that are doubles -/

/-- The whole number has at most 53 binary digits, apart from the zeros at its end, and it is far from
the infinities. -/
def Fits (z : Int) : Prop := ∃ m k : Nat, m ≤ 2 ^ 53 ∧ k ≤ 200 ∧ z.natAbs = m * 2 ^ k

theorem fits_of_dvd {k : Nat} (hk : k ≤ 200) (hdvd : (2 ^ k : Int) ∣ z)
    (hz : z.natAbs ≤ 2 ^ (53 + k)) : Fits z := by
  obtain ⟨c, rfl⟩ := hdvd
  have habs : ((2 ^ k : Int) * c).natAbs = c.natAbs * 2 ^ k := by
    rw [Int.natAbs_mul, Int.natAbs_pow, Nat.mul_comm]
    rfl
  refine ⟨c.natAbs, k, ?_, hk, habs⟩
  rw [habs, Nat.pow_add] at hz
  exact Nat.le_of_mul_le_mul_right hz (Nat.two_pow_pos k)

theorem fits_of_le (hz : z.natAbs ≤ 2 ^ 53) : Fits z := by
  refine fits_of_dvd (k := 0) (by decide) ?_ hz
  rw [pow_zero]
  exact one_dvd z

/-- A whole double that is not too great fits. -/
theorem Whole.fits (h : Whole x z) (hz : z.natAbs ≤ 2 ^ 200) : Fits z := by
  rcases h.cases with ⟨-, rfl⟩ | ⟨s, m, e, hm, hx, -, hmagnitude⟩
  · exact fits_of_le (by decide)
  · have hlt := (canonical_of_exact hx).lt
    rcases le_or_gt e 0 with he | he
    · -- fewer digits than the mantissa has
      have hle : (z.natAbs : ℚ) ≤ m := by
        rw [← hmagnitude]
        exact mul_le_of_le_one_right (Nat.cast_nonneg m) (zpow_le_one_of_nonpos₀ one_le_two he)
      have hle : z.natAbs ≤ m := by exact_mod_cast hle
      exact fits_of_le (hle.trans hlt.le)
    · obtain ⟨k, rfl⟩ : ∃ k : Nat, e = k := ⟨e.toNat, by omega⟩
      have habs : z.natAbs = m * 2 ^ k := by
        rw [zpow_natCast] at hmagnitude
        exact_mod_cast hmagnitude.symm
      refine ⟨m, k, hlt.le, ?_, habs⟩
      have hle : 2 ^ k ≤ 2 ^ 200 := by
        calc 2 ^ k
          _ ≤ m * 2 ^ k := Nat.le_mul_of_pos_left _ hm
          _ ≤ 2 ^ 200 := habs ▸ hz
      exact (Nat.pow_le_pow_iff_right (by decide)).mp hle

/-- What is rounded to a number that fits is that number. -/
theorem Rounded.whole (h : Rounded z.natAbs m e) (hz : Fits z) (hne : z ≠ 0)
    (hs : s.apply z.natAbs = z) : Whole (.ofModel (.pack (signed s m e))) z := by
  obtain ⟨n, k, hn, hk, habs⟩ := hz
  have hvalue : (z.natAbs : ℚ) = n * 2 ^ (k : Int) := by
    rw [habs, zpow_natCast]
    push_cast
    rfl
  have hexact : (m * 2 ^ e : ℚ) = z.natAbs := by
    rw [hvalue]
    exact le_antisymm (h.le n k hn (by omega) hvalue.le) (h.ge n k hn (by omega) hvalue.ge)
  have hm : m ≠ 0 := by
    rintro rfl
    rw [Nat.cast_zero, zero_mul] at hexact
    exact hne (Int.natAbs_eq_zero.mp (by exact_mod_cast hexact.symm))
  have hlt : (z.natAbs : ℚ) < overflow := by
    refine lt_of_le_of_lt ?_ (two_pow_lt_overflow (k := 253) (by decide))
    calc (z.natAbs : ℚ)
      _ = n * 2 ^ k := by rw [habs]; push_cast; rfl
      _ ≤ 2 ^ 53 * 2 ^ 200 :=
        mul_le_mul (by exact_mod_cast hn) (pow_le_pow_right₀ one_le_two hk) (by positivity)
          (by positivity)
      _ = 2 ^ 253 := by rw [← pow_add]
  have hcanonical : Canonical m e := ⟨Nat.pos_of_ne_zero hm, h.lt, h.least, h.full⟩
  unfold Whole signed
  rw [dif_neg hm, exact_pack hcanonical (h.inRange.mpr hlt)]
  exact .finite hs hexact

/-! ## Arithmetic -/

theorem whole_zero : Whole (.ofModel (.pack (.zero .positive))) 0 := .zero

/-- A number that is brought into shape is kept if it fits. -/
theorem whole_normalize (hz : Fits z) (h : (a * 2 ^ e : ℚ) = z) :
    Whole (.ofModel (.pack (UnpackedFloat.normalize .binary64 a e .positive))) z := by
  have hunit : (0 : ℚ) < 2 ^ e := by positivity
  have habs : (a.natAbs * 2 ^ e : ℚ) = z.natAbs := by
    rw [Nat.cast_natAbs, Nat.cast_natAbs, Int.cast_abs, Int.cast_abs, ← h, abs_mul, abs_of_pos hunit]
  unfold UnpackedFloat.normalize
  split
  · next hcompare =>
    have ha : a < 0 := Int.compare_eq_lt.mp hcompare
    have hneg : z < 0 := by
      have : (z : ℚ) < 0 := h ▸ mul_neg_of_neg_of_pos (by exact_mod_cast ha) hunit
      exact_mod_cast this
    obtain ⟨m', e', hround, hrounded⟩ := round_eq .negative (-a).toNat e
    rw [show (-a).toNat = a.natAbs by omega] at hround hrounded ⊢
    rw [habs] at hrounded
    rw [hround]
    exact hrounded.whole hz hneg.ne (apply_negative_iff.mpr hneg.le)
  · next hcompare =>
    have ha : a = 0 := Int.compare_eq_eq.mp hcompare
    rw [ha, Int.cast_zero, zero_mul] at h
    rw [show z = 0 by exact_mod_cast h.symm]
    exact .zero
  · next hcompare =>
    have ha : 0 < a := Int.compare_eq_gt.mp hcompare
    have hpos : 0 < z := by
      have : (0 : ℚ) < z := h ▸ mul_pos (by exact_mod_cast ha) hunit
      exact_mod_cast this
    obtain ⟨m', e', hround, hrounded⟩ := round_eq .positive a.toNat e
    rw [show a.toNat = a.natAbs by omega] at hround hrounded ⊢
    rw [habs] at hrounded
    rw [hround]
    exact hrounded.whole hz hpos.ne' (apply_positive_iff.mpr hpos.le)

/-- A signed mantissa in smaller units. -/
theorem apply_shift_eq {t : Int} (ht : t ≤ e) (hs : s.apply z.natAbs = z)
    (h : (m * 2 ^ e : ℚ) = z.natAbs) :
    ((s.apply (m <<< (e - t).toNat : Nat) : Int) * 2 ^ t : ℚ) = z := by
  rw [zpow_split ht] at h
  rw [Nat.shiftLeft_eq]
  cases s with
  | positive =>
      have hz : ((z.natAbs : Int) : ℚ) = z := by rw [← hs]; rfl
      rw [← hz, Int.cast_natCast, ← h]
      rfl
  | negative =>
      have hz : (-(z.natAbs : Int) : Int) = z := hs
      rw [← hz, Int.cast_neg, Int.cast_natCast, ← h]
      simp [Sign.apply]

/-- Two numbers that are not zero are added at the smaller exponent. -/
theorem whole_add_finite {s' : Sign} {hn : 0 < n} (hs : s.apply a.natAbs = a)
    (ha : (m * 2 ^ e : ℚ) = a.natAbs) (hs' : s'.apply b.natAbs = b)
    (hb : (n * 2 ^ f : ℚ) = b.natAbs) (hab : Fits (a + b)) :
    Whole (.ofModel (.pack (UnpackedFloat.add .binary64 (.finite s m e hm) (.finite s' n f hn))))
      (a + b) := by
  refine whole_normalize hab ?_
  rw [Int.cast_add, add_mul, apply_shift_eq (min_le_left e f) hs ha,
    apply_shift_eq (min_le_right e f) hs' hb, Int.cast_add]

/-- A whole double is kept when it is packed again. -/
theorem Whole.pack_exact (h : Whole x z) : Whole (.ofModel (.pack (exact x))) z := by
  rcases h.cases with ⟨hx, rfl⟩ | ⟨s, m, e, hm, hx, hsign, hmagnitude⟩
  · rw [hx]
    exact .zero
  · unfold Whole
    rw [hx, exact_pack (canonical_of_exact hx) (exponent_le hx)]
    exact .finite hsign hmagnitude

theorem Whole.add (hx : Whole x a) (hy : Whole y b) (hab : Fits (a + b)) : Whole (x + y) (a + b) := by
  show Whole (.ofModel (.pack (UnpackedFloat.add .binary64 (exact x) (exact y)))) (a + b)
  rcases hx.cases with ⟨hx', rfl⟩ | ⟨s, m, e, hm, hx', hsign, hmagnitude⟩
  · rcases hy.cases with ⟨hy', rfl⟩ | ⟨s', n, f, hn, hy', -, -⟩
    · rw [hx', hy']
      exact .zero
    · have h := hy.pack_exact
      rw [hy'] at h
      rw [hx', hy', Int.zero_add]
      exact h
  · rcases hy.cases with ⟨hy', rfl⟩ | ⟨s', n, f, hn, hy', hsign', hmagnitude'⟩
    · have h := hx.pack_exact
      rw [hx'] at h
      rw [hx', hy', Int.add_zero]
      exact h
    · rw [hx', hy']
      exact whole_add_finite hsign hmagnitude hsign' hmagnitude' hab

/-- The opposite of a number that is not zero. -/
theorem apply_neg_natAbs (hs : s.apply z.natAbs = z) : (-s).apply (-z).natAbs = -z := by
  rw [Int.natAbs_neg, neg_apply, hs]

theorem Whole.neg (h : Whole x z) (hz : z ≠ 0) : Whole (-x) (-z) := by
  unfold Whole
  rw [exact_neg h.isFinite]
  rcases h.cases with ⟨-, rfl⟩ | ⟨s, m, e, hm, hx, hsign, hmagnitude⟩
  · exact absurd rfl hz
  · rw [hx]
    exact .finite (apply_neg_natAbs hsign) (by rw [Int.natAbs_neg, hmagnitude])

theorem Whole.sub (hx : Whole x a) (hy : Whole y b) (hab : Fits (a - b)) : Whole (x - y) (a - b) := by
  show Whole (.ofModel (.pack (UnpackedFloat.sub .binary64 (exact x) (exact y)))) (a - b)
  rcases hy.cases with ⟨hy', rfl⟩ | ⟨s', n, f, hn, hy', hsign', hmagnitude'⟩
  · -- zero is taken away as the negative zero, which leaves the other number as it is
    rw [hy', Int.sub_zero]
    have h := hx.pack_exact
    rcases hx.cases with ⟨hx', -⟩ | ⟨s, m, e, hm, hx', -, -⟩
    · rw [hx'] at h ⊢
      exact h
    · rw [hx'] at h ⊢
      exact h
  · have hb : b ≠ 0 := Int.natAbs_ne_zero.mp (natAbs_ne_zero hn hmagnitude')
    have h := hx.add (hy.neg hb) (by rwa [← Int.sub_eq_add_neg])
    change Whole (.ofModel (.pack (UnpackedFloat.add .binary64 (exact x) (exact (-y))))) _ at h
    rwa [exact_neg hy.isFinite, ← unpacked_sub_eq, ← Int.sub_eq_add_neg] at h

/-- The sign of a product. -/
theorem apply_mul_natAbs {s' : Sign} (hs : s.apply a.natAbs = a) (hs' : s'.apply b.natAbs = b) :
    (s * s').apply (a * b).natAbs = a * b := by
  cases s with
  | positive =>
      rw [apply_positive_iff] at hs
      cases s' with
      | positive =>
          rw [apply_positive_iff] at hs'
          exact apply_positive_iff.mpr (Int.mul_nonneg hs hs')
      | negative =>
          rw [apply_negative_iff] at hs'
          exact apply_negative_iff.mpr (mul_nonpos_of_nonneg_of_nonpos hs hs')
  | negative =>
      rw [apply_negative_iff] at hs
      cases s' with
      | positive =>
          rw [apply_positive_iff] at hs'
          exact apply_negative_iff.mpr (mul_nonpos_of_nonpos_of_nonneg hs hs')
      | negative =>
          rw [apply_negative_iff] at hs'
          exact apply_positive_iff.mpr (mul_nonneg_of_nonpos_of_nonpos hs hs')

/-- A positive whole number has the positive sign. -/
theorem eq_positive (hs : s.apply z.natAbs = z) (hz : 0 < z) : s = .positive := by
  cases s with
  | positive => rfl
  | negative =>
      rw [apply_negative_iff] at hs
      exact absurd hz (Int.not_lt.mpr hs)

/-- Division by a positive number keeps the sign. -/
theorem apply_natAbs_of_mul (hs : s.apply (a * b).natAbs = a * b) (hb : 0 < b) :
    s.apply a.natAbs = a := by
  cases s with
  | positive =>
      rw [apply_positive_iff] at hs ⊢
      exact nonneg_of_mul_nonneg_left hs hb
  | negative =>
      rw [apply_negative_iff] at hs ⊢
      exact nonpos_of_mul_nonpos_left hs hb

theorem Whole.mul (hx : Whole x a) (hy : Whole y b) (hb : 0 < b) (hab : Fits (a * b)) :
    Whole (x * y) (a * b) := by
  show Whole (.ofModel (.pack (UnpackedFloat.mul .binary64 (exact x) (exact y)))) (a * b)
  rcases hy.cases with ⟨-, rfl⟩ | ⟨s', n, f, hn, hy', hsign', hmagnitude'⟩
  · exact absurd hb (Int.lt_irrefl 0)
  rcases hx.cases with ⟨hx', rfl⟩ | ⟨s, m, e, hm, hx', hsign, hmagnitude⟩
  · rw [hx', hy', eq_positive hsign' hb, Int.zero_mul]
    exact whole_zero
  · obtain ⟨m', e', hround, hrounded⟩ := @mul_finite_eq m e hm n f hn s s'
      ((canonical_of_exact hx').bits_mul (canonical_of_exact hy'))
    have hvalue : (m * 2 ^ e * (n * 2 ^ f) : ℚ) = (a * b).natAbs := by
      rw [hmagnitude, hmagnitude', Int.natAbs_mul, Nat.cast_mul]
    have hne : a * b ≠ 0 := Int.mul_ne_zero
      (Int.natAbs_ne_zero.mp (natAbs_ne_zero hm hmagnitude)) hb.ne'
    rw [hx', hy', hround]
    rw [hvalue] at hrounded
    exact hrounded.whole hab hne (apply_mul_natAbs hsign hsign')

theorem Whole.div (hx : Whole x (a * b)) (hy : Whole y b) (hb : 0 < b) (ha : Fits a) :
    Whole (x / y) a := by
  show Whole (.ofModel (.pack (UnpackedFloat.div .binary64 (exact x) (exact y)))) a
  rcases hy.cases with ⟨-, rfl⟩ | ⟨s', n, f, hn, hy', hsign', hmagnitude'⟩
  · exact absurd hb (Int.lt_irrefl 0)
  obtain rfl := eq_positive hsign' hb
  have hbabs : (b.natAbs : ℚ) ≠ 0 := by exact_mod_cast natAbs_ne_zero hn hmagnitude'
  rcases hx.cases with ⟨hx', hab⟩ | ⟨s, m, e, hm, hx', hsign, hmagnitude⟩
  · rw [hx', hy', (Int.mul_eq_zero.mp hab).resolve_right hb.ne']
    exact whole_zero
  · obtain ⟨m', e', hround, hrounded⟩ := @div_finite_eq m e hm n f hn s .positive
    have hvalue : (m * 2 ^ e / (n * 2 ^ f) : ℚ) = a.natAbs := by
      rw [hmagnitude, hmagnitude', Int.natAbs_mul, Nat.cast_mul, mul_div_cancel_right₀ _ hbabs]
    have hne : a ≠ 0 := by
      rintro rfl
      rw [Int.zero_mul] at hmagnitude
      exact natAbs_ne_zero hm hmagnitude rfl
    have hpositive : s / Sign.positive = s := by cases s <;> rfl
    rw [hx', hy', hround, hpositive]
    rw [hvalue] at hrounded
    exact hrounded.whole ha hne (apply_natAbs_of_mul hsign hb)

/-! ## Rounding to a whole number -/

/-- A whole number is kept by a rounding that keeps whole numbers. -/
theorem Whole.toWhole {pick : Sign → Nat → Nat → Nat} (h : Whole x z)
    (hpick : ∀ s n d, 0 < d → pick s (n * d) d = n) : Number.toWhole pick x = x := by
  unfold Number.toWhole
  split
  · next s m k hm hx =>
    rcases h.cases with ⟨hx', -⟩ | ⟨s', n, f, hn, hx', hsign, hmagnitude⟩
    · rw [hx] at hx'
      cases hx'
    rw [hx] at hx'
    cases hx'
    have hm' : m = z.natAbs * 2 ^ (k + 1) := by
      rw [zpow_negSucc, ← div_eq_mul_inv, div_eq_iff (by positivity)] at hmagnitude
      exact_mod_cast hmagnitude
    have hne := natAbs_ne_zero hn hmagnitude
    have hlt : z.natAbs ≤ 2 ^ 53 :=
      calc z.natAbs
        _ ≤ z.natAbs * 2 ^ (k + 1) := Nat.le_mul_of_pos_right _ (Nat.two_pow_pos _)
        _ ≤ 2 ^ 53 := hm' ▸ (canonical_of_exact hx).lt.le
    obtain ⟨m', e', hround, hrounded⟩ := round_eq s z.natAbs 0
    rw [zpow_zero, mul_one] at hrounded
    have hwhole := hrounded.whole (fits_of_le hlt) (Int.natAbs_ne_zero.mp hne) hsign
    rw [Nat.pow_eq, hm', hpick s z.natAbs _ (Nat.two_pow_pos _)]
    unfold nearest
    rw [hround]
    exact hwhole.unique h
  · rfl

theorem Whole.truncate (h : Whole x z) : Number.truncate x = x :=
  h.toWhole fun _ n _ hd => Nat.mul_div_cancel n hd

theorem quotientUp_mul {d : Nat} (n : Nat) (hd : 0 < d) : quotientUp (n * d) d = n := by
  unfold quotientUp
  rw [Nat.mul_comm, Nat.mul_add_div hd, Nat.div_eq_of_lt (by omega), Nat.add_zero]

theorem Whole.floor (h : Whole x z) : Number.floor x = x := by
  refine h.toWhole fun s n d hd => ?_
  cases s with
  | positive => exact Nat.mul_div_cancel n hd
  | negative => exact quotientUp_mul n hd

theorem Whole.roundHalfAway (h : Whole x z) : Number.roundHalfAway x = x := by
  refine h.toWhole fun _ n d hd => ?_
  rw [Nat.mul_left_comm, Nat.mul_comm, Nat.mul_add_div (by omega), Nat.div_eq_of_lt (by omega),
    Nat.add_zero]

end FormulaTable.Number
