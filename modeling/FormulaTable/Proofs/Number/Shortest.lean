import FormulaTable.Number.Shortest
import FormulaTable.Proofs.Number.Double

/-!
# Shortest decimals tell doubles apart

The shortest decimal of a double lies in the interval of the numbers that round to it. The intervals
of greater doubles hold greater numbers only, so the decimals are in the order of their doubles.
-/

namespace FormulaTable.Number

/-- The number that a decimal stands for. -/
def Decimal.value (d : Decimal) : ℚ := d.coefficient * 10 ^ d.exponent

theorem zpow_mul_pow_neg {b : ℚ} (hb : b ≠ 0) (n : Int) : b ^ n * b ^ (-n).toNat = b ^ n.toNat := by
  rw [← zpow_natCast b (-n).toNat, ← zpow_natCast b n.toNat, ← zpow_add₀ hb]
  congr 1
  omega

namespace Interval

variable {i : Interval} {k : Int} {tie : Tie} {a b c : Nat} {p q r : ℚ}

/-- `p` lies before `q`, or at it where the ends belong to the interval. -/
def Before (i : Interval) (p q : ℚ) : Prop := if i.closed then p ≤ q else p < q

/-- The interval holds the number. -/
structure Holds (i : Interval) (q : ℚ) : Prop where
  lower : i.Before (i.lower * 2 ^ i.exponent) q
  upper : i.Before q (i.upper * 2 ^ i.exponent)

theorem Before.le (h : i.Before p q) : p ≤ q := by
  unfold Before at h
  split at h
  · exact h
  · exact h.le

theorem Before.lt (h : i.Before p q) (hopen : i.closed = false) : p < q := by
  unfold Before at h
  rwa [hopen, if_neg Bool.false_ne_true] at h

theorem before_of_lt (h : p < q) : i.Before p q := by
  unfold Before
  split
  · exact h.le
  · exact h

theorem before_mul (hr : 0 < r) : i.Before (p * r) (q * r) ↔ i.Before p q := by
  unfold Before
  rw [mul_le_mul_iff_left₀ hr, mul_lt_mul_iff_left₀ hr]

theorem ordered_iff : i.ordered a b = true ↔ i.Before a b := by
  unfold ordered Before
  rw [Nat.cast_le, Nat.cast_lt]
  split
  · exact decide_eq_true_iff
  · exact decide_eq_true_iff

/-! ## Grids -/

/-- The unit of the interval on a common scale with `10 ^ k`. -/
def scale (i : Interval) (k : Int) : Nat := Nat.pow 2 i.exponent.toNat * Nat.pow 10 (-k).toNat

/-- `10 ^ k` on a common scale with the unit of the interval. -/
def step (i : Interval) (k : Int) : Nat := Nat.pow 10 k.toNat * Nat.pow 2 (-i.exponent).toNat

theorem scale_pos : 0 < i.scale k :=
  Nat.mul_pos (Nat.pow_pos (by decide)) (Nat.pow_pos (by decide))

theorem step_pos : 0 < i.step k :=
  Nat.mul_pos (Nat.pow_pos (by decide)) (Nat.pow_pos (by decide))

/-- What both sides of a comparison are multiplied by on the common scale. -/
def factor (i : Interval) (k : Int) : ℚ := 2 ^ (-i.exponent).toNat * 10 ^ (-k).toNat

theorem factor_pos : 0 < i.factor k := by
  unfold factor
  positivity

theorem cast_mul_scale : ((a * i.scale k : Nat) : ℚ) = a * 2 ^ i.exponent * i.factor k := by
  have hscale : (i.scale k : ℚ) = 2 ^ i.exponent.toNat * 10 ^ (-k).toNat := by exact_mod_cast rfl
  rw [Nat.cast_mul, hscale, factor, ← zpow_mul_pow_neg two_ne_zero]
  ring

theorem cast_mul_step : ((c * i.step k : Nat) : ℚ) = c * 10 ^ k * i.factor k := by
  have hstep : (i.step k : ℚ) = 10 ^ k.toNat * 2 ^ (-i.exponent).toNat := by exact_mod_cast rfl
  rw [Nat.cast_mul, hstep, factor, ← zpow_mul_pow_neg (by norm_num)]
  ring

/-- A point of a grid lies in the interval if it does on the common scale. -/
theorem holds_of_ordered (hlower : i.ordered (i.lower * i.scale k) (c * i.step k) = true)
    (hupper : i.ordered (c * i.step k) (i.upper * i.scale k) = true) : i.Holds (c * 10 ^ k) := by
  rw [ordered_iff, cast_mul_scale, cast_mul_step, before_mul factor_pos] at hlower hupper
  exact ⟨hlower, hupper⟩

theorem ordered_of_lt (h : a < b) : i.ordered a b = true :=
  ordered_iff.mpr (before_of_lt (Nat.cast_lt.mpr h))

/-- The greatest point of the grid that is not above the centre. -/
def floorPoint (i : Interval) (k : Int) : Nat := i.centre * i.scale k / i.step k

/-- A grid gives one of the two points next to the centre. -/
theorem eq_of_onGrid? (h : i.onGrid? tie k = some c) :
    (c = i.floorPoint k ∧ i.ordered (i.lower * i.scale k) (i.floorPoint k * i.step k) = true) ∨
      (c = i.floorPoint k + 1 ∧
        i.ordered ((i.floorPoint k + 1) * i.step k) (i.upper * i.scale k) = true) := by
  unfold onGrid? at h
  dsimp only at h
  split at h
  · cases h
  · next hbelow _ => exact .inl ⟨(Option.some.inj h).symm, hbelow⟩
  · next _ habove => exact .inr ⟨(Option.some.inj h).symm, habove⟩
  · next hbelow habove =>
    have hc : c = i.floorPoint k ∨ c = i.floorPoint k + 1 := by
      -- of two points the nearer one is taken, and a tie goes up or to the even one
      split at h
      · exact .inl (Option.some.inj h).symm
      split at h
      · exact .inr (Option.some.inj h).symm
      cases tie with
      | up => exact .inr (Option.some.inj h).symm
      | even =>
        have heven : i.floorPoint k + i.floorPoint k % 2 = c := Option.some.inj h
        omega
    rcases hc with rfl | rfl
    · exact .inl ⟨rfl, hbelow⟩
    · exact .inr ⟨rfl, habove⟩

/-- A point that is chosen on a grid lies in the interval. -/
theorem holds_of_onGrid? (hlower : i.lower ≤ i.centre) (hupper : i.centre < i.upper)
    (h : i.onGrid? tie k = some c) : i.Holds (c * 10 ^ k) := by
  rcases eq_of_onGrid? h with ⟨rfl, hordered⟩ | ⟨rfl, hordered⟩
  · refine holds_of_ordered hordered (ordered_of_lt ?_)
    calc i.floorPoint k * i.step k
      _ ≤ i.centre * i.scale k := Nat.div_mul_le_self ..
      _ < i.upper * i.scale k := Nat.mul_lt_mul_of_pos_right hupper scale_pos
  · refine holds_of_ordered (ordered_of_lt ?_) hordered
    calc i.lower * i.scale k
      _ ≤ i.centre * i.scale k := Nat.mul_le_mul_right _ hlower
      _ < (i.floorPoint k + 1) * i.step k := Nat.lt_mul_of_div_lt (Nat.lt_succ_self _) step_pos

theorem value_expansion : i.expansion.value = i.centre * 2 ^ i.exponent := by
  have hten : (10 : ℚ) ^ (-((-i.exponent).toNat : Int)) * 10 ^ (-i.exponent).toNat = 1 := by
    rw [← zpow_natCast, ← zpow_add₀ (by norm_num), neg_add_cancel, zpow_zero]
  have hsplit : (10 : ℚ) ^ (-i.exponent).toNat =
      2 ^ (-i.exponent).toNat * 5 ^ (-i.exponent).toNat := by
    rw [← mul_pow]
    norm_num
  have hcoefficient : (i.expansion.coefficient : ℚ) =
      i.centre * 2 ^ i.exponent.toNat * 5 ^ (-i.exponent).toNat := by
    exact_mod_cast rfl
  calc i.expansion.value
    _ = i.centre * 2 ^ i.exponent.toNat * 5 ^ (-i.exponent).toNat *
        10 ^ (-((-i.exponent).toNat : Int)) := by rw [Decimal.value, hcoefficient]; rfl
    _ = i.centre * 2 ^ i.exponent *
        (10 ^ (-((-i.exponent).toNat : Int)) * 10 ^ (-i.exponent).toNat) := by
      rw [← zpow_mul_pow_neg two_ne_zero i.exponent, hsplit]
      ring
    _ = i.centre * 2 ^ i.exponent := by rw [hten, mul_one]

/-- Whatever grids are tried, the decimal that is found lies in the interval. -/
theorem holds_search (hlower : i.lower < i.centre) (hupper : i.centre < i.upper) (tries : Nat) :
    i.Holds (i.search tie k tries).value := by
  induction tries generalizing k with
  | zero =>
    have hunit : (0 : ℚ) < 2 ^ i.exponent := by positivity
    rw [search, value_expansion]
    exact ⟨before_of_lt (mul_lt_mul_of_pos_right (Nat.cast_lt.mpr hlower) hunit),
      before_of_lt (mul_lt_mul_of_pos_right (Nat.cast_lt.mpr hupper) hunit)⟩
  | succ tries ih =>
    rw [search]
    split
    · next c h => exact holds_of_onGrid? hlower.le hupper h
    · exact ih

/-! ## Doubles -/

variable {m n : Nat} {e f : Int}

theorem lower_ofDouble (m : Nat) (e : Int) :
    (ofDouble m e).lower = if m = 2 ^ 52 ∧ -1074 < e then 4 * m - 1 else 4 * m - 2 := rfl

theorem closed_ofDouble (hodd : m % 2 = 1) : (ofDouble m e).closed = false := by
  change (m % 2 == 0) = false
  rw [hodd]
  rfl

theorem lower_ofDouble_lt (h : 0 < m) : (ofDouble m e).lower < (ofDouble m e).centre := by
  change _ < 4 * m
  rw [lower_ofDouble]
  split <;> omega

theorem centre_ofDouble_lt : (ofDouble m e).centre < (ofDouble m e).upper :=
  Nat.lt_add_of_pos_right (by decide)

/-- Of two doubles with the same exponent the intervals may share an end, which belongs to one of
them at most. -/
theorem lt_of_holds_of_mantissa_lt (hlt : m < n) (hp : (ofDouble m e).Holds p)
    (hq : (ofDouble n e).Holds q) : p < q := by
  have hunit : (0 : ℚ) < 2 ^ (e - 2) := by positivity
  have hle : 4 * m + 2 ≤ (ofDouble n e).lower := by
    rw [lower_ofDouble]
    split <;> omega
  rcases Nat.lt_or_eq_of_le hle with hends | hends
  · calc p
      _ ≤ (4 * m + 2 : Nat) * 2 ^ (e - 2) := hp.upper.le
      _ < (ofDouble n e).lower * 2 ^ (e - 2) :=
        mul_lt_mul_of_pos_right (Nat.cast_lt.mpr hends) hunit
      _ ≤ q := hq.lower.le
  · have hupper := hp.upper
    change Before _ _ ((4 * m + 2 : Nat) * 2 ^ (e - 2)) at hupper
    rw [hends] at hupper
    have hodd : m % 2 = 1 ∨ n % 2 = 1 := by
      rw [lower_ofDouble] at hends
      split at hends <;> omega
    rcases hodd with hodd | hodd
    · exact (hupper.lt (closed_ofDouble hodd)).trans_le hq.lower.le
    · exact hupper.le.trans_lt (hq.lower.lt (closed_ofDouble hodd))

/-- The number at which the doubles of the next exponent begin is out of reach. -/
theorem lt_of_holds_of_canonical (hm : Canonical m e) (hp : (ofDouble m e).Holds p) :
    p < (2 ^ 55 - 2 : Nat) * 2 ^ (e - 2) := by
  have hunit : (0 : ℚ) < 2 ^ (e - 2) := by positivity
  have hlt := hm.lt
  rcases Nat.lt_or_ge m (2 ^ 53 - 1) with hlt | hge
  · calc p
      _ ≤ (4 * m + 2 : Nat) * 2 ^ (e - 2) := hp.upper.le
      _ < (2 ^ 55 - 2 : Nat) * 2 ^ (e - 2) :=
        mul_lt_mul_of_pos_right (Nat.cast_lt.mpr (by omega)) hunit
  · obtain rfl : m = 2 ^ 53 - 1 := by omega
    exact hp.upper.lt (closed_ofDouble (by decide))

/-- The intervals of greater doubles hold greater numbers. -/
theorem lt_of_holds_of_exponent_lt (hm : Canonical m e) (hn : Canonical n f) (hlt : e < f)
    (hp : (ofDouble m e).Holds p) (hq : (ofDouble n f).Holds q) : p < q := by
  have hleast : -1074 < f := hm.least.trans_lt hlt
  have hfull : 2 ^ 52 ≤ n := hn.full hleast
  have hlower : 2 ^ 54 - 1 ≤ (ofDouble n f).lower := by
    rw [lower_ofDouble]
    split <;> omega
  have hunits : (2 : ℚ) * 2 ^ (e - 2) ≤ 2 ^ (f - 2) := by
    rw [← zpow_one_add₀ two_ne_zero]
    exact zpow_le_zpow_right₀ one_le_two (by omega)
  calc p
    _ < (2 ^ 55 - 2 : Nat) * 2 ^ (e - 2) := lt_of_holds_of_canonical hm hp
    _ = (2 ^ 54 - 1 : Nat) * (2 * 2 ^ (e - 2)) := by push_cast; ring
    _ ≤ (ofDouble n f).lower * 2 ^ (f - 2) :=
      mul_le_mul (Nat.cast_le.mpr hlower) hunits (by positivity) (by positivity)
    _ ≤ q := hq.lower.le

end Interval

variable {tie : Tie} {m n : Nat} {e f : Int}

/-- The shortest decimal of a double rounds to it. -/
theorem holds_shortest (h : 0 < m) : (Interval.ofDouble m e).Holds (shortest tie m e).value :=
  Interval.holds_search (Interval.lower_ofDouble_lt h) Interval.centre_ofDouble_lt 20

/-- Shortest decimals are in the order of their doubles. -/
theorem shortest_lt (tie : Tie) (hm : Canonical m e) (hn : Canonical n f)
    (hlt : e < f ∨ e = f ∧ m < n) : (shortest tie m e).value < (shortest tie n f).value := by
  rcases hlt with hlt | ⟨rfl, hlt⟩
  · exact Interval.lt_of_holds_of_exponent_lt hm hn hlt (holds_shortest hm.pos)
      (holds_shortest hn.pos)
  · exact Interval.lt_of_holds_of_mantissa_lt hlt (holds_shortest hm.pos) (holds_shortest hn.pos)

/-- The shortest decimal tells which double it stands for. -/
theorem eq_of_shortest_value_eq (hm : Canonical m e) (hn : Canonical n f)
    (h : (shortest tie m e).value = (shortest tie n f).value) : m = n ∧ e = f := by
  have horder : (e < f ∨ e = f ∧ m < n) ∨ (f < e ∨ f = e ∧ n < m) ∨ m = n ∧ e = f := by omega
  rcases horder with hlt | hlt | heq
  · exact absurd h (shortest_lt tie hm hn hlt).ne
  · exact absurd h (shortest_lt tie hn hm hlt).ne'
  · exact heq

theorem shortest_value_pos (h : 0 < m) : 0 < (shortest tie m e).value := by
  have hlower : 0 < (Interval.ofDouble m e).lower := by
    rw [Interval.lower_ofDouble]
    split <;> omega
  calc (0 : ℚ)
    _ < (Interval.ofDouble m e).lower * 2 ^ (e - 2) := by positivity
    _ ≤ (shortest tie m e).value := (holds_shortest h).lower.le

end FormulaTable.Number
