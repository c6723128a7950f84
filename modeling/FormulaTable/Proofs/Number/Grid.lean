import FormulaTable.Proofs.Number.DecimalPlaces

/-!
# Places of shortest decimals

A grid that is finer than the interval of a double has a point in it, so the search for the shortest
decimal of a double goes no further than to the first such grid.
-/

namespace FormulaTable.Number

namespace Interval

variable {i : Interval} {tie : Tie} {k k' : Int}

/-- A grid finer than the interval has a point in it. -/
theorem onGrid?_ne_none (h : i.lower * i.scale k + i.step k < i.upper * i.scale k) :
    i.onGrid? tie k ≠ none := by
  intro hnone
  unfold onGrid? at hnone
  dsimp only at hnone
  split at hnone
  · next hbelow habove =>
    -- the points next to the centre would be a whole interval apart
    have hlower : i.floorPoint k * i.step k ≤ i.lower * i.scale k :=
      Nat.le_of_not_lt fun hlt => Bool.false_ne_true (hbelow.symm.trans (ordered_of_lt hlt))
    have hupper : i.upper * i.scale k ≤ (i.floorPoint k + 1) * i.step k :=
      Nat.le_of_not_lt fun hlt => Bool.false_ne_true (habove.symm.trans (ordered_of_lt hlt))
    rw [Nat.succ_mul] at hupper
    omega
  · cases hnone
  · cases hnone
  · split at hnone
    · cases hnone
    split at hnone
    · cases hnone
    · cases tie <;> cases hnone

/-- The search stops at such a grid at the latest. -/
theorem le_search_exponent (h : i.onGrid? tie k ≠ none) {tries : Nat} (hle : k ≤ k')
    (hlt : k' < k + tries) : k ≤ (i.search tie k' tries).exponent := by
  induction tries generalizing k' with
  | zero => omega
  | succ tries ih =>
      rw [search]
      split
      · exact hle
      · next hnone =>
        have hne : k' ≠ k := by
          rintro rfl
          exact h hnone
        exact ih (by omega) (by omega)

/-- The interval of a double is three quarters of its unit at least. -/
theorem lower_add_three_le {m : Nat} (hm : 0 < m) (e : Int) :
    (ofDouble m e).lower + 3 ≤ (ofDouble m e).upper := by
  show _ + 3 ≤ 4 * m + 2
  rw [lower_ofDouble]
  split
  · omega
  · omega

end Interval

/-- For the doubles with these exponents one of the grids that are tried is finer than the interval and
has at most as many places as are kept. -/
theorem fine_grid_tried : ∀ j : Fin 132,
    let e : Int := j - 90
    let k := max (-(maxPlaces : Int)) (powerOfTenAbove (e + 53) - 19)
    k ≤ powerOfTenAbove (e + 53) ∧
      Nat.pow 10 k.toNat * Nat.pow 2 (-(e - 2)).toNat <
        3 * (Nat.pow 2 (e - 2).toNat * Nat.pow 10 (-k).toNat) := by
  decide +kernel

/-- **A shortest decimal has more places than are kept only near zero.** Its double has a unit of less
than `2 ^ -90` then. -/
theorem le_shortest_exponent (tie : Tie) {m : Nat} {e : Int} (h : Canonical m e) (he : -90 ≤ e)
    (hlt : (m * 2 ^ e : ℚ) < 2 ^ 94) : -(maxPlaces : Int) ≤ (shortest tie m e).exponent := by
  have hfull : 2 ^ 52 ≤ m := h.full (by omega)
  have hlog : m.log2 = 52 := (Nat.log2_eq_iff h.pos.ne').mpr ⟨hfull, h.lt⟩
  have hmost : e < 42 := by
    by_contra hgreat
    have hfull' : (2 ^ 52 : ℚ) ≤ m := by exact_mod_cast hfull
    have hle : (2 ^ 94 : ℚ) ≤ m * 2 ^ e := by
      calc (2 ^ 94 : ℚ)
        _ = 2 ^ 52 * 2 ^ (42 : Int) := by norm_num
        _ ≤ m * 2 ^ e := mul_le_mul hfull' (zpow_le_zpow_right₀ one_le_two (by omega))
          (by positivity) (by positivity)
    linarith
  obtain ⟨j, hj⟩ : ∃ j : Fin 132, (j : Int) - 90 = e := ⟨⟨(e + 90).toNat, by omega⟩, by simp; omega⟩
  have hgrid := fine_grid_tried j
  dsimp only at hgrid
  rw [hj] at hgrid
  obtain ⟨hle, hfine⟩ := hgrid
  have hpower : m.log2 + 1 + e = e + 53 := by omega
  unfold shortest
  rw [hpower]
  refine le_trans (le_max_left _ (powerOfTenAbove (e + 53) - 19))
    (Interval.le_search_exponent (Interval.onGrid?_ne_none ?_) hle (by omega))
  calc (Interval.ofDouble m e).lower * (Interval.ofDouble m e).scale _ +
        (Interval.ofDouble m e).step _
    _ < (Interval.ofDouble m e).lower * (Interval.ofDouble m e).scale _ +
        3 * (Interval.ofDouble m e).scale _ := Nat.add_lt_add_left hfine _
    _ = ((Interval.ofDouble m e).lower + 3) * (Interval.ofDouble m e).scale _ :=
      (Nat.add_mul ..).symm
    _ ≤ (Interval.ofDouble m e).upper * (Interval.ofDouble m e).scale _ :=
      Nat.mul_le_mul_right _ (Interval.lower_add_three_le h.pos e)

end FormulaTable.Number
