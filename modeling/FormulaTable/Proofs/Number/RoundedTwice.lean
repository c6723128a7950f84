import FormulaTable.Proofs.Number.Grid
import FormulaTable.Proofs.Number.Nearness
import FormulaTable.Proofs.Number.Text

/-!
# Decimals that are rounded twice

A double is rounded to decimal places as it is written, but first the digits after the last place that is
kept are rounded off. So a number that lies just below the middle between two numbers of so many places
is rounded to the middle first, and then away from zero. All other numbers come out as if they were
rounded once.
-/

namespace FormulaTable.Number

open Float.Model.UnpackedFloat (Sign)

variable {x y : Float} {q : ℚ} {s : Sign} {m places : Nat} {e k : Int}

/-! ## Rational numbers -/

/-- The number lies below the middle of two neighbours with so many places, by no more than half a unit
of the last place that is kept. -/
def JustBelowMiddle (places : Nat) (q : ℚ) : Prop :=
  places < maxPlaces ∧ ∃ k : Int,
    (k - 1 / 2) / 10 ^ places - 1 / 2 / 10 ^ maxPlaces ≤ q ∧ q < (k - 1 / 2) / 10 ^ places

/-- A number is rounded up to a multiple from the middle below it on. -/
theorem le_halfUp_iff : k / 10 ^ places ≤ halfUp places q ↔ (k - 1 / 2) / 10 ^ places ≤ q := by
  have hunit : (0 : ℚ) < 10 ^ places := by positivity
  rw [halfUp, div_le_div_iff_of_pos_right hunit, Int.cast_le, Int.le_floor, div_le_iff₀ hunit,
    sub_le_iff_le_add]

/-- Where fewer places are kept, the middles are multiples of the last place. -/
theorem exists_middle_eq (h : places < maxPlaces) (k : Int) :
    ∃ j : Int, (k - 1 / 2) / 10 ^ places = (j / 10 ^ maxPlaces : ℚ) := by
  obtain ⟨n, hn⟩ : ∃ n, maxPlaces = places + (n + 1) := ⟨maxPlaces - places - 1, by omega⟩
  refine ⟨(2 * k - 1) * 5 * 10 ^ n, ?_⟩
  rw [hn, pow_add, pow_succ]
  push_cast
  field_simp
  ring

/-- To round to all places that are kept moves the middles down by half a unit of the last one. -/
theorem le_halfUp_twice_iff (h : places < maxPlaces) :
    k / 10 ^ places ≤ halfUp places (halfUp maxPlaces q) ↔
      (k - 1 / 2) / 10 ^ places - 1 / 2 / 10 ^ maxPlaces ≤ q := by
  obtain ⟨j, hj⟩ := exists_middle_eq h k
  rw [le_halfUp_iff, hj, le_halfUp_iff, sub_div]

/-- A rounded number is told by the multiples that are not above it. -/
theorem halfUp_eq_iff : halfUp places q = k / 10 ^ places ↔
    k / 10 ^ places ≤ halfUp places q ∧ ¬ (k + 1 : Int) / 10 ^ places ≤ halfUp places q := by
  have hunit : (0 : ℚ) < 10 ^ places := by positivity
  rw [halfUp, div_left_inj' hunit.ne', div_le_div_iff_of_pos_right hunit,
    div_le_div_iff_of_pos_right hunit, Int.cast_inj, Int.cast_le, Int.cast_le]
  omega

/-- A multiple is rounded to itself. -/
theorem halfUp_multiple (places : Nat) (k : Int) :
    halfUp places (k / 10 ^ places) = k / 10 ^ places := by
  have hunit : (0 : ℚ) < 10 ^ places := by positivity
  rw [halfUp_eq_iff, le_halfUp_iff, le_halfUp_iff, div_le_div_iff_of_pos_right hunit,
    div_le_div_iff_of_pos_right hunit]
  push_cast
  exact ⟨by linarith, by linarith⟩

/-- Away from the middles it does not matter that the number is rounded twice. -/
theorem halfUp_twice (h : places ≤ maxPlaces) (hq : ¬ JustBelowMiddle places q) :
    halfUp places (halfUp maxPlaces q) = halfUp places q := by
  obtain ⟨k, hk⟩ : ∃ k : Int, halfUp places q = k / 10 ^ places := ⟨_, rfl⟩
  rw [hk]
  rcases Nat.lt_or_eq_of_le h with hlt | rfl
  · obtain ⟨hle, hnext⟩ := halfUp_eq_iff.mp hk
    have hunit : (0 : ℚ) ≤ 1 / 2 / 10 ^ maxPlaces := by positivity
    rw [halfUp_eq_iff, le_halfUp_twice_iff hlt, le_halfUp_twice_iff hlt]
    rw [le_halfUp_iff] at hle hnext
    exact ⟨by linarith, fun hge => hq ⟨hlt, k + 1, hge, not_le.mp hnext⟩⟩
  · rw [hk, halfUp_multiple]

/-- Just below a middle the number is rounded up twice, to the next number of so many places. -/
theorem halfUp_of_justBelowMiddle (hq : JustBelowMiddle places q) :
    halfUp places (halfUp maxPlaces q) = halfUp places q + 1 / 10 ^ places := by
  obtain ⟨hlt, k, hlower, hupper⟩ := hq
  have hunits : (1 / 2 / 10 ^ maxPlaces : ℚ) < 1 / 10 ^ places := by
    rw [div_div]
    refine one_div_lt_one_div_of_lt (by positivity) ?_
    calc (10 ^ places : ℚ)
      _ ≤ 10 ^ maxPlaces := pow_le_pow_right₀ (by norm_num) hlt.le
      _ < 2 * 10 ^ maxPlaces := lt_mul_of_one_lt_left (by positivity) one_lt_two
  have hmiddle (j : Int) : ((j + 1 : Int) - 1 / 2 : ℚ) / 10 ^ places =
      (j - 1 / 2) / 10 ^ places + 1 / 10 ^ places := by
    push_cast
    ring
  have htwice : halfUp places (halfUp maxPlaces q) = k / 10 ^ places := by
    rw [halfUp_eq_iff, le_halfUp_twice_iff hlt, le_halfUp_twice_iff hlt, hmiddle]
    exact ⟨hlower, by linarith⟩
  have honce : halfUp places q = (k - 1 : Int) / 10 ^ places := by
    have hbelow := hmiddle (k - 1)
    rw [sub_add_cancel] at hbelow
    rw [halfUp_eq_iff, le_halfUp_iff, le_halfUp_iff, sub_add_cancel]
    exact ⟨by linarith, not_le.mpr hupper⟩
  rw [htwice, honce]
  push_cast
  ring

/-! ## Doubles -/

/-- A number with the places that are kept does not lie just below a middle. -/
theorem not_justBelowMiddle_multiple (places : Nat) (k : Int) :
    ¬ JustBelowMiddle places (k / 10 ^ maxPlaces) := by
  rintro ⟨hlt, j, hlower, hupper⟩
  have hunit : (0 : ℚ) < 10 ^ maxPlaces := by positivity
  obtain ⟨i, hi⟩ := exists_middle_eq hlt j
  rw [hi, ← sub_div, div_le_div_iff_of_pos_right hunit] at hlower
  rw [hi, div_lt_div_iff_of_pos_right hunit, Int.cast_lt] at hupper
  have hnext : (k + 1 : ℚ) ≤ i := by exact_mod_cast hupper
  linarith

/-- The double whose shortest decimal lies just below a middle is small. -/
theorem lt_of_justBelowMiddle (hcanonical : Canonical m e) (hlt : (m * 2 ^ e : ℚ) < 2 ^ 94)
    (h : JustBelowMiddle places (shortest .up m e).value) : e < -90 := by
  by_contra he
  have hexponent := le_shortest_exponent .up hcanonical (Int.not_lt.mp he) hlt
  obtain ⟨n, hn⟩ : ∃ n : Nat, (shortest .up m e).exponent = n - maxPlaces :=
    ⟨((shortest .up m e).exponent + maxPlaces).toNat, by omega⟩
  refine not_justBelowMiddle_multiple places ((shortest .up m e).coefficient * 10 ^ n) ?_
  have hvalue : (shortest .up m e).value =
      (((shortest .up m e).coefficient * 10 ^ n : Int) : ℚ) / 10 ^ maxPlaces := by
    rw [Decimal.value, hn, zpow_sub₀ (by norm_num), zpow_natCast, zpow_natCast]
    push_cast
    ring
  rwa [← hvalue]

/-- The shortest decimal of a double with a small unit. -/
theorem shortest_value_lt (hcanonical : Canonical m e) (he : e < -90) :
    (shortest .up m e).value ≤ (2 ^ 53 - 1 / 2) * 2 ^ (-91 : Int) := by
  have hm : (m : ℚ) ≤ 2 ^ 53 - 1 := by
    rw [le_sub_iff_add_le]
    exact_mod_cast hcanonical.lt
  have hunit : (2 : ℚ) ^ (e - 2) = 2 ^ e / 4 := by
    rw [zpow_sub₀ two_ne_zero]
    norm_num
  calc (shortest .up m e).value
    _ ≤ (4 * m + 2 : Nat) * 2 ^ (e - 2) := (holds_shortest hcanonical.pos).upper.le
    _ = (m + 1 / 2) * 2 ^ e := by
      rw [hunit]
      push_cast
      ring
    _ ≤ (2 ^ 53 - 1 / 2) * 2 ^ (-91 : Int) :=
      mul_le_mul (by linarith) (zpow_le_zpow_right₀ one_le_two (by omega)) (by positivity)
        (by norm_num)

theorem signedBy_zero (s : Sign) : signedBy s 0 = 0 := by
  cases s with
  | positive => rfl
  | negative => exact neg_zero

theorem signedBy_sub (s : Sign) (p q : ℚ) : |signedBy s p - signedBy s q| = |p - q| := by
  cases s with
  | positive => rfl
  | negative =>
      show |-p - -q| = _
      rw [neg_sub_neg, abs_sub_comm]

/-- Where a number is rounded up from just below a middle, its two neighbours have different nearest
doubles. -/
theorem not_nearest_of_justBelowMiddle (hcanonical : Canonical m e) (hlt : (m * 2 ^ e : ℚ) < 2 ^ 94)
    (h : JustBelowMiddle places (shortest .up m e).value)
    (hy : Nearest y (signedBy s (halfUp places (halfUp maxPlaces (shortest .up m e).value)))) :
    ¬ Nearest y (signedBy s (halfUp places (shortest .up m e).value)) := by
  intro hy'
  have hsmall := shortest_value_lt hcanonical (lt_of_justBelowMiddle hcanonical hlt h)
  -- the neighbours, as decimals
  obtain ⟨above, habove⟩ : ∃ d : Decimal,
      d.value = halfUp places (halfUp maxPlaces (shortest .up m e).value) :=
    ⟨((shortest .up m e).roundHalfAway maxPlaces).roundHalfAway places, by
      rw [Decimal.value_roundHalfAway, Decimal.value_roundHalfAway]⟩
  obtain ⟨below, hbelow⟩ : ∃ d : Decimal, d.value = halfUp places (shortest .up m e).value :=
    ⟨(shortest .up m e).roundHalfAway places, Decimal.value_roundHalfAway ..⟩
  have hstep : above.value = below.value + 1 / 10 ^ places := by
    rw [habove, hbelow, halfUp_of_justBelowMiddle h]
  have hplaces : (10 : ℚ) ^ places ≤ 10 ^ 27 :=
    pow_le_pow_right₀ (by norm_num) (Nat.le_of_lt_succ h.1)
  have hunit : (1 / 10 ^ 27 : ℚ) ≤ 1 / 10 ^ places := one_div_le_one_div_of_le (by positivity) hplaces
  have hbelow0 : 0 ≤ below.value := below.value_nonneg
  have hfar : above.value ≤ 2 ^ 53 * 2 ^ (-90 : Int) := by
    have htwice := halfUp_le places (halfUp maxPlaces (shortest .up m e).value)
    have honce := halfUp_le maxPlaces (shortest .up m e).value
    rw [← habove, div_right_comm] at htwice
    rw [div_right_comm] at honce
    calc above.value
      _ ≤ 2 * (shortest .up m e).value + 1 / 10 ^ maxPlaces := by
        linarith only [htwice, honce, hstep, hbelow0]
      _ ≤ 2 * ((2 ^ 53 - 1 / 2) * 2 ^ (-91 : Int)) + 1 / 10 ^ maxPlaces :=
        add_le_add_left (mul_le_mul_of_nonneg_left hsmall two_pos.le) _
      _ ≤ 2 ^ 53 * 2 ^ (-90 : Int) := by
        rw [maxPlaces]
        norm_num
  rw [← habove] at hy
  rw [← hbelow] at hy'
  have hfinite {d : Decimal} (hd : d.value ≤ 2 ^ 53 * 2 ^ (-90 : Int)) :
      d.toFloat.isFinite = true := Decimal.toFloat_isFinite (hd.trans (by norm_num))
  have hnear : below.value ≤ 2 ^ 53 * 2 ^ (-90 : Int) := by
    refine le_trans ?_ hfar
    rw [hstep]
    exact le_add_of_nonneg_right (by positivity)
  have hdistance := hy.abs_sub_le (hfinite hfar) (by decide) hfar
  have hdistance' := hy'.abs_sub_le (hfinite hnear) (by decide) hnear
  have htriangle := abs_sub_le (signedBy s above.value) (position y) (signedBy s below.value)
  rw [signedBy_sub, abs_sub_comm _ (position y), hstep, add_sub_cancel_left,
    abs_of_pos (by positivity), ← hstep] at htriangle
  have hunits : (2 ^ (-90 : Int) : ℚ) < 1 / 10 ^ 27 := by norm_num
  linarith

/-- The rounded decimal is read as the nearest double, with the sign of the number; zero has none. -/
theorem nearest_roundDecimal (s : Sign) (hm : 0 < m) (hlt : (m * 2 ^ e : ℚ) < 2 ^ 94)
    (places : Nat) : Nearest (roundDecimal s m e places)
      (signedBy s (halfUp places (halfUp maxPlaces (shortest .up m e).value))) := by
  rw [← Decimal.value_roundHalfAway, ← Decimal.value_roundHalfAway]
  unfold roundDecimal
  dsimp only
  split
  · next hzero =>
    have hvalue : (((shortest .up m e).roundHalfAway maxPlaces).roundHalfAway places).value = 0 := by
      rw [Decimal.value, hzero, Nat.cast_zero, zero_mul]
    rw [hvalue, signedBy_zero]
    exact nearest_zero
  · have hlimit : (m * 2 ^ e : ℚ) < 2 ^ 96 := hlt.trans (by norm_num)
    exact Decimal.nearest_withSign _ s
      (Decimal.toFloat_isFinite (value_roundHalfAway_twice_le hm hlimit places))

/-! ## Rounding -/

/-- A text of digits after a sign is that of a zero or of a finite number with this sign, and the digits
are those of its shortest decimal. -/
theorem exact_of_signedText {d : Decimal} (h : signedText x = signText s ++ d.positional) :
    exact x = .zero s ∧ d.value = 0 ∨
      ∃ m e hm, exact x = .finite s m e hm ∧ d.value = (shortest .up m e).value := by
  have hdigits (d : Decimal) : d.positional.head? ≠ some '-' :=
    d.digitFirst_positional.head?_ne (by decide)
  have hletter (c : Char) (hc : c.isDigit = false) : d.positional.head? ≠ some c :=
    d.digitFirst_positional.head?_ne hc
  cases hx : exact x with
  | notANumber =>
      have htext : signText .positive ++ "NaN".toList = signText s ++ d.positional := by
        rw [← h, signedText, hx]
        rfl
      have hword := (signText_append_inj (by decide) (hdigits d) htext).2
      exact absurd (congrArg List.head? hword.symm) (hletter 'N' (by decide))
  | infinity s' =>
      rw [signedText_of_infinity hx] at h
      have hword := (signText_append_inj (by decide) (hdigits d) h).2
      exact absurd (congrArg List.head? hword.symm) (hletter 'i' (by decide))
  | zero s' =>
      have htext : signText s' ++ ['0'] = signText s ++ d.positional := by
        rw [← h, signedText, hx]
      obtain ⟨rfl, hzero⟩ := signText_append_inj (by decide) (hdigits d) htext
      refine .inl ⟨rfl, ?_⟩
      have hvalue : (⟨0, 0⟩ : Decimal).value = d.value := Decimal.value_eq_of_positional_eq hzero
      rw [← hvalue, Decimal.value, Nat.cast_zero, zero_mul]
  | finite s' m e hm =>
      rw [signedText_of_finite hx] at h
      obtain ⟨rfl, hsame⟩ := signText_append_inj (hdigits _) (hdigits d) h
      exact .inr ⟨m, e, hm, rfl, (Decimal.value_eq_of_positional_eq hsame).symm⟩

/-- Below the limit a number is rounded as it is written. -/
theorem round_of_lt {hm : 0 < m} (hx : exact x = .finite s m e hm) (hlt : (m * 2 ^ e : ℚ) < 2 ^ 94)
    (hplaces : places ≤ maxPlaces) : round x places = some (roundDecimal s m e places) := by
  have habs : x.abs < 79228162514264337593543950336.0 := by
    have hnumber : x.abs.isNaN = false := by
      rw [isNaN_eq_false_iff, exact_abs hx]
      nofun
    refine lt_iff_position.mpr ⟨hnumber, by decide, ?_⟩
    rw [position, position, exact_abs hx, exact_binaryLimit]
    refine hlt.trans ?_
    show (2 ^ 94 : ℚ) < (2 ^ 52 : Nat) * 2 ^ (44 : Int)
    norm_num
  unfold round
  rw [hx]
  dsimp only
  rw [if_pos habs, Nat.min_eq_left hplaces]

/-- **A number is rounded once, unless it lies just below a middle.** The result of rounding to places is
the double nearest to the digits of the text rounded twice, to all places that are kept and then to the
places asked for. It is nearest to the digits rounded once just if they do not lie just below the middle
between two numbers of so many places. -/
theorem rounds_once_iff {d : Decimal} (htext : signedText x = signText s ++ d.positional)
    (hlt : |position x| < 10 ^ 28) (hplaces : places ≤ maxPlaces) :
    ∃ y, round x places = some y ∧
      Nearest y (signedBy s (halfUp places (halfUp maxPlaces d.value))) ∧
      (Nearest y (signedBy s (halfUp places d.value)) ↔ ¬ JustBelowMiddle places d.value) := by
  rcases exact_of_signedText htext with ⟨hx, hvalue⟩ | ⟨m, e, hm, hx, hvalue⟩
  · have hround : round x places = some 0 := by
      unfold round
      rw [hx]
    have hzero (places : Nat) : halfUp places 0 = 0 := by
      have hmultiple := halfUp_multiple places 0
      rwa [Int.cast_zero, zero_div] at hmultiple
    have hmiddle := not_justBelowMiddle_multiple places 0
    rw [Int.cast_zero, zero_div] at hmiddle
    rw [hvalue, hzero, hzero, signedBy_zero]
    exact ⟨0, hround, nearest_zero, iff_of_true nearest_zero hmiddle⟩
  · have hcanonical := canonical_of_exact hx
    have hsmall : (m * 2 ^ e : ℚ) < 2 ^ 94 := by
      have hfinite : x.isFinite = true := by
        rw [isFinite_iff, hx]
        rfl
      rw [← magnitude_of_exact hx, magnitude_eq_abs hfinite]
      exact hlt.trans (by norm_num)
    have hnearest := nearest_roundDecimal s hm hsmall places
    rw [hvalue]
    refine ⟨_, round_of_lt hx hsmall hplaces, hnearest, fun honce hmiddle => ?_, fun hmiddle => ?_⟩
    · exact not_nearest_of_justBelowMiddle hcanonical hsmall hmiddle hnearest honce
    · rwa [halfUp_twice hplaces hmiddle] at hnearest

/-- Half a cent, of which the double is a little more. -/
theorem half_a_cent_rounded_once :
    signedText (-0.005) = signText .negative ++ (⟨5, -3⟩ : Decimal).positional ∧
      round (-0.005) 2 = some (-0.01) ∧ Nearest (-0.01) (signedBy .negative (1 / 100)) := by
  have htext : signedText (-0.005) = signText .negative ++ (⟨5, -3⟩ : Decimal).positional := by
    decide +kernel
  have hx : exact (-0.005) = .finite .negative 5764607523034235 (-60) (by decide) := rfl
  have hlt : |position (-0.005)| < 10 ^ 28 := by
    rw [position, hx, positionOf, signedBy, abs_neg]
    norm_num
  have hround : round (-0.005) 2 = some (-0.01) := by decide +kernel
  have hmiddle : ¬ JustBelowMiddle 2 (⟨5, -3⟩ : Decimal).value := by
    have h := not_justBelowMiddle_multiple 2 (5 * 10 ^ 25)
    have hvalue : (⟨5, -3⟩ : Decimal).value = ((5 * 10 ^ 25 : Int) : ℚ) / 10 ^ maxPlaces := by
      rw [Decimal.value, maxPlaces]
      norm_num
    rwa [hvalue]
  have hhalf : halfUp 2 (⟨5, -3⟩ : Decimal).value = 1 / 100 := by
    rw [halfUp, Decimal.value]
    norm_num
  obtain ⟨y, hy, -, honce⟩ := rounds_once_iff htext hlt (show 2 ≤ maxPlaces by decide)
  obtain rfl : -0.01 = y := Option.some.inj (hround.symm.trans hy)
  rw [hhalf] at honce
  exact ⟨htext, hround, honce.mpr hmiddle⟩

/-- Digits that are rounded to a middle first, and from there away from zero. -/
theorem rounded_up_from_below_middle :
    signedText 4.9999999999999995e-14 =
        signText .positive ++ (⟨49999999999999995, -30⟩ : Decimal).positional ∧
      |position 4.9999999999999995e-14| < 10 ^ 28 ∧
      ¬ ∃ y, round 4.9999999999999995e-14 13 = some y ∧
        Nearest y (signedBy .positive (halfUp 13 (⟨49999999999999995, -30⟩ : Decimal).value)) := by
  have hx : exact 4.9999999999999995e-14 =
      .finite .positive 7922816251426433 (-97) (by decide) := rfl
  have hround : round 4.9999999999999995e-14 13 = some 1e-13 := by decide +kernel
  have hy : exact 1e-13 = .finite .positive 7922816251426434 (-96) (by decide) := rfl
  refine ⟨by decide +kernel, ?_, ?_⟩
  · rw [position, hx, positionOf, signedBy]
    norm_num
  · rintro ⟨y, hsome, hnearest⟩
    obtain rfl : 1e-13 = y := Option.some.inj (hround.symm.trans hsome)
    -- zero, to which the digits are rounded, is a double itself
    have hzero : halfUp 13 (⟨49999999999999995, -30⟩ : Decimal).value = 0 := by
      rw [halfUp, Decimal.value]
      norm_num
    have hle := hnearest.near 0 rfl
    rw [hzero, signedBy_zero, position_zero, sub_zero, sub_zero, position, hy, positionOf, signedBy]
      at hle
    norm_num at hle

end FormulaTable.Number
