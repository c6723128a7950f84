import FormulaTable.Proofs.Formula.FiniteNumbers
import FormulaTable.Proofs.Json.NumeralRange
import FormulaTable.Proofs.Rollup.RowOrder
import FormulaTable.Proofs.Stored.RoundTrip

/-!
# Rollups beyond the doubles

Where all values of the rows are finite, the counts, the parts in percent and the chosen numbers are.
Sums and means are not guarded: they are finite as long as no sum on the way is too great for a double.
A result that is not finite is stored as a number without digits, which is not read back.
-/

namespace FormulaTable

/-! ## Sums and quotients -/

namespace Number

open Float.Model (UnpackedFloat)

variable {x y : Float} {xs : List Float}

/-- What is no number or infinite is packed as such. -/
theorem not_finite_pack {u : UnpackedFloat} (hu : u.isFinite = false) :
    (Float.ofModel (.pack u)).isFinite = false := by
  cases u with
  | zero | finite => cases hu
  | notANumber => rfl
  | infinity s => cases s <;> rfl

/-- What is not finite stays so under every addition ... -/
theorem not_finite_add {u : UnpackedFloat} (hu : u.isFinite = false) (v : UnpackedFloat) :
    (UnpackedFloat.add .binary64 u v).isFinite = false := by
  cases u with
  | zero | finite => cases hu
  | notANumber => cases v <;> rfl
  | infinity s =>
      cases v with
      | infinity s' => cases s <;> cases s' <;> rfl
      | notANumber | zero | finite => rfl

/-- ... and every division. -/
theorem not_finite_div {u : UnpackedFloat} (hu : u.isFinite = false) (v : UnpackedFloat) :
    (UnpackedFloat.div .binary64 u v).isFinite = false := by
  cases u with
  | zero | finite => cases hu
  | notANumber => cases v <;> rfl
  | infinity s => cases v <;> rfl

theorem isFinite_of_add (h : (x + y).isFinite = true) : x.isFinite = true := by
  by_contra hx
  have hexact : (exact x).isFinite = false := Bool.eq_false_of_not_eq_true hx
  have hsum : (x + y).isFinite = false := not_finite_pack (not_finite_add hexact (exact y))
  rw [hsum] at h
  cases h

theorem isFinite_of_div (h : (x / y).isFinite = true) : x.isFinite = true := by
  by_contra hx
  have hexact : (exact x).isFinite = false := Bool.eq_false_of_not_eq_true hx
  have hquotient : (x / y).isFinite = false :=
    not_finite_pack (not_finite_div hexact (exact y))
  rw [hquotient] at h
  cases h

theorem isFinite_of_foldl_add (h : (xs.foldl (· + ·) x).isFinite = true) : x.isFinite = true := by
  induction xs generalizing x with
  | nil => exact h
  | cons y ys ih => exact isFinite_of_add (ih h)

/-- No number is added that makes the sum so far reach the overflow. -/
def SumsInRange : Float → List Float → Prop
  | _, [] => True
  | x, y :: ys => |position x + position y| < overflow ∧ SumsInRange (x + y) ys

instance decidableSumsInRange : (x : Float) → (xs : List Float) → Decidable (SumsInRange x xs)
  | _, [] => isTrue trivial
  | x, y :: ys =>
    have := decidableSumsInRange (x + y) ys
    inferInstanceAs (Decidable (_ ∧ _))

/-- A sum of finite numbers is finite just if all sums on the way are in range. -/
theorem isFinite_foldl_add_iff (hx : x.isFinite = true) (hxs : ∀ y ∈ xs, y.isFinite = true) :
    (xs.foldl (· + ·) x).isFinite = true ↔ SumsInRange x xs := by
  induction xs generalizing x with
  | nil => exact iff_of_true hx trivial
  | cons y ys ih =>
      obtain ⟨hy, hys⟩ := List.forall_mem_cons.mp hxs
      have hsum := (rounds_add_position hx hy).isFinite_iff
      rw [List.foldl_cons, SumsInRange, ← hsum]
      constructor
      · intro h
        have hfinite := isFinite_of_foldl_add h
        exact ⟨hfinite, (ih hfinite hys).mp h⟩
      · rintro ⟨hfinite, h⟩
        exact (ih hfinite hys).mpr h

/-- To divide by one or more makes nothing finite and leaves what is finite so. -/
theorem isFinite_div_iff (hy : y.isFinite = true) (hone : 1 ≤ magnitude y) :
    (x / y).isFinite = true ↔ x.isFinite = true := by
  refine ⟨isFinite_of_div, fun hx => ?_⟩
  refine (rounds_div hx hy (one_pos.trans_le hone)).isFinite_iff.mpr ?_
  calc magnitude x / magnitude y
    _ ≤ magnitude x := div_le_self (magnitude_nonneg x) hone
    _ = |position x| := magnitude_eq_abs hx
    _ < overflow := abs_position_lt hx

end Number

/-! ## Results -/

namespace RollupResult

open Number (SumsInRange)

/-- The result is no number, or a finite one. -/
def IsFinite : RollupResult → Prop
  | number x => x.isFinite = true
  | null | values _ => True

variable {n part whole : Nat} {xs : List Float}

theorem atMost_ofNat (hn : n < 2 ^ 64) : Number.AtMost (Float.ofNat n) 64 :=
  (Number.rounds_ofNat n).atMost (by decide) (by exact_mod_cast hn.le)

theorem one_le_magnitude_ofNat (hpos : 0 < n) (hn : n < 2 ^ 64) :
    1 ≤ Number.magnitude (Float.ofNat n) :=
  (Number.rounds_ofNat n).one_le (atMost_ofNat hn).isFinite (by exact_mod_cast hpos)

theorem isFinite_ofCount (hn : n < 2 ^ 64) : (ofCount n).IsFinite := (atMost_ofNat hn).isFinite

theorem isFinite_percent (hpart : part < 2 ^ 64) (hwhole : whole < 2 ^ 64) :
    (percent part whole).IsFinite := by
  unfold percent
  split
  · show (0.0 : Float).isFinite = true
    decide
  · next hne =>
    have hhundred : Number.AtMost 100.0 7 := ⟨by decide, by decide +kernel⟩
    have hquotient := (atMost_ofNat hpart).div (atMost_ofNat hwhole).isFinite
      (one_le_magnitude_ofNat (Nat.pos_of_ne_zero hne) hwhole) (by decide)
    exact (hquotient.mul hhundred (by decide)).isFinite

/-- What is chosen is one of the numbers. -/
theorem isFinite_best {r : ℚ → ℚ → Prop} [IsLinearOrder ℚ r] {choose : Float → Float → Float}
    (hchoose : Number.Chooses r choose) (hxs : ∀ x ∈ xs, x.isFinite = true) :
    (best choose xs).IsFinite := by
  cases xs with
  | nil => trivial
  | cons x xs => exact hxs _ (hchoose.isBest_foldl x xs).mem

/-- The sum is finite just if no sum on the way is too great ... -/
theorem isFinite_sum_iff (hxs : ∀ x ∈ xs, x.isFinite = true) :
    (sum xs).IsFinite ↔ SumsInRange (-0.0) xs :=
  Number.isFinite_foldl_add_iff (by decide) hxs

/-- ... and so is the mean. -/
theorem isFinite_average_iff (hxs : ∀ x ∈ xs, x.isFinite = true) (hlength : xs.length < 2 ^ 64) :
    (average xs).IsFinite ↔ SumsInRange 0.0 xs := by
  unfold average
  cases xs with
  | nil => exact iff_of_true trivial trivial
  | cons x xs =>
      rw [← Number.isFinite_foldl_add_iff (by decide) hxs]
      exact Number.isFinite_div_iff (atMost_ofNat hlength).isFinite
        (one_le_magnitude_ofNat (Nat.succ_pos _) hlength)

/-! ## Stored results -/

theorem numberReadsBack_listValue (vs : List Value) : (listValue vs).NumberReadsBack := by
  unfold listValue
  split
  · trivial
  · trivial

/-- **The cell of a result is read back just if the result is finite.** -/
theorem isSome_reread?_iff (r : RollupResult) :
    (Json.reread? (Value.ofJson? {}) r.toValue.toJson).isSome = true ↔ r.IsFinite := by
  unfold Json.reread?
  rw [Json.ofText?_compact r.toValue.readable_toJson, Option.bind_some]
  cases r with
  | number x =>
      show (Value.ofJson? {} (Value.number x).toJson).isSome = true ↔ _
      rw [Value.ofJson?_number, Option.isSome_map]
      exact Json.isSome_toFloat?_ofFloat_iff
  | null => exact iff_of_true rfl trivial
  | values vs =>
      have hread : Value.ofJson? {} (listValue vs).toJson = some (listValue vs) :=
        Value.ofJson?_toJson {} (numberReadsBack_listValue vs)
      refine iff_of_true ?_ trivial
      show (Value.ofJson? {} (listValue vs).toJson).isSome = true
      rw [hread, Option.isSome_some]

end RollupResult

/-! ## The rollups -/

namespace Entries

variable {target : Column} {rows : List Row}

theorem isFinite_of_mem (hrows : ∀ row ∈ rows, row.IsFinite) {v : Value}
    (hv : v ∈ (ofRows target rows).values) : v.IsFinite := by
  obtain ⟨row, hrow, hv⟩ := List.mem_flatMap.mp hv
  unfold ofRow at hv
  split at hv
  · -- the entry of an option is a text, and without options it is null
    unfold ofOptions at hv
    split at hv
    · rw [List.mem_singleton.mp hv]
      trivial
    · obtain ⟨item, -, rfl⟩ := List.mem_map.mp hv
      trivial
  · rw [List.mem_singleton.mp hv]
    exact (hrows row hrow).value target

/-- Every row gives an entry. -/
theorem rowCount_le (target : Column) (rows : List Row) :
    (ofRows target rows).rowCount ≤ (ofRows target rows).values.length := by
  have hone : ∀ k ∈ rows.map (countOfRow target), 1 ≤ k := by
    intro k hk
    obtain ⟨row, -, rfl⟩ := List.mem_map.mp hk
    unfold countOfRow
    split
    · exact Nat.le_max_left 1 _
    · exact le_rfl
  have hle := List.length_le_sum_of_one_le _ hone
  rwa [← length_ofRows, List.length_map] at hle

theorem isFinite_numbers {e : Entries} (he : ∀ v ∈ e.values, v.IsFinite) :
    ∀ x ∈ e.numbers, x.isFinite = true := by
  intro x hx
  obtain ⟨v, hv, hx⟩ := List.mem_filterMap.mp hx
  exact (he v hv).toNumber? hx

theorem isFinite_candidates {e : Entries} (he : ∀ v ∈ e.values, v.IsFinite) (target : Column) :
    ∀ x ∈ Aggregation.candidates target e, x.isFinite = true := by
  unfold Aggregation.candidates
  split
  · intro x hx
    obtain ⟨v, -, hx⟩ := List.mem_filterMap.mp hx
    obtain ⟨t, -, rfl⟩ := Option.map_eq_some_iff.mp hx
    exact t.atMost_toNumber.isFinite
  · exact isFinite_numbers he

end Entries

open Number (SumsInRange)

/-- The number of different keys is one of at most all values. -/
theorem Value.length_firstPerKey_le (vs : List Value) : (firstPerKey vs).length ≤ vs.length := by
  rw [length_firstPerKey, ← List.length_map key]
  exact List.toFinset_card_le _

namespace Aggregation

variable {a : Aggregation} {e : Entries}

theorem isFinite_apply (hsum : a ≠ .sum) (haverage : a ≠ .average) (target : Column)
    (he : ∀ v ∈ e.values, v.IsFinite) (hrows : e.rowCount ≤ e.values.length)
    (hlength : e.values.length < 2 ^ 64) : (a.apply target e).IsFinite := by
  have hfilled : e.filled.length < 2 ^ 64 := (List.length_filter_le _ _).trans_lt hlength
  have hempty : e.emptyCount < 2 ^ 64 := (Nat.sub_le _ _).trans_lt hlength
  cases a with
  | sum => exact absurd rfl hsum
  | average => exact absurd rfl haverage
  | count => exact RollupResult.isFinite_ofCount (hrows.trans_lt hlength)
  | countValues | countNotEmpty => exact RollupResult.isFinite_ofCount hfilled
  | countEmpty => exact RollupResult.isFinite_ofCount hempty
  | countUnique =>
      exact RollupResult.isFinite_ofCount ((Value.length_firstPerKey_le _).trans_lt hlength)
  | min => exact RollupResult.isFinite_best Number.chooses_least (Entries.isFinite_candidates he target)
  | max =>
      exact RollupResult.isFinite_best Number.chooses_greatest (Entries.isFinite_candidates he target)
  | percentEmpty => exact RollupResult.isFinite_percent hempty hlength
  | percentNotEmpty => exact RollupResult.isFinite_percent hfilled hlength
  | showOriginal | showUnique => trivial

/-- Sums and means are the only results that may leave the doubles. -/
theorem isFinite_apply_iff (a : Aggregation) (target : Column) (he : ∀ v ∈ e.values, v.IsFinite)
    (hrows : e.rowCount ≤ e.values.length) (hlength : e.values.length < 2 ^ 64) :
    (a.apply target e).IsFinite ↔
      (a = .sum → SumsInRange (-0.0) e.numbers) ∧ (a = .average → SumsInRange 0.0 e.numbers) := by
  have hnumbers := Entries.isFinite_numbers he
  by_cases hsum : a = .sum
  · subst hsum
    have hiff := RollupResult.isFinite_sum_iff hnumbers
    exact hiff.trans ⟨fun h => ⟨fun _ => h, nofun⟩, fun h => h.1 rfl⟩
  · by_cases haverage : a = .average
    · subst haverage
      have hiff := RollupResult.isFinite_average_iff hnumbers
        ((List.length_filterMap_le _ _).trans_lt hlength)
      exact hiff.trans ⟨fun h => ⟨nofun, fun _ => h⟩, fun h => h.2 rfl⟩
    · exact iff_of_true (isFinite_apply hsum haverage target he hrows hlength)
        ⟨fun h => absurd h hsum, fun h => absurd h haverage⟩

end Aggregation

/-- **Which rollups of finite rows are finite.** The result is null, a list of values or a finite
number, unless it is a sum or a mean and some sum on the way reaches the overflow. Its cell is read
back from its text just if the result is finite, and as the same value if its number, should it be
one, reads back from its numeral. Entries are counted by words of 64 bits. -/
theorem finite_rollups (config : RollupConfig) (target : Column) (rows : List Row)
    (hrows : ∀ row ∈ rows, row.IsFinite)
    (hlength : (Entries.ofRows target rows).values.length < 2 ^ 64) :
    let result := config.calculate target rows
    let numbers := (Entries.ofRows target rows).numbers
    (result.IsFinite ↔ (config.aggregation = .sum → SumsInRange (-0.0) numbers) ∧
        (config.aggregation = .average → SumsInRange 0.0 numbers)) ∧
      ((Json.reread? (Value.ofJson? {}) result.toValue.toJson).isSome = true ↔ result.IsFinite) ∧
      (result.toValue.NumberReadsBack →
        Json.reread? (Value.ofJson? {}) result.toValue.toJson = some result.toValue) := by
  intro result numbers
  refine ⟨?_, result.isSome_reread?_iff, fun h => ?_⟩
  · exact config.aggregation.isFinite_apply_iff target (fun v hv => Entries.isFinite_of_mem hrows hv)
      (Entries.rowCount_le target rows) hlength
  · exact Json.reread?_eq_some result.toValue.readable_toJson (Value.ofJson?_toJson _ h)

theorem isFinite_amountRow {x : Float} (hx : x.isFinite = true) : (amountRow x).IsFinite :=
  (Row.IsFinite.empty "r").setCell (v := .number x) hx "t"

/-- The amounts are nearly as great as a double may be, also together. -/
theorem great_amounts_in_range :
    let rows := [amountRow 1e308, amountRow 7e307, amountRow (-1e308)]
    let result := RollupConfig.calculate { relation := "r", target := "t", aggregation := .sum } amounts
      rows
    (∀ row ∈ rows, row.IsFinite) ∧ (Entries.ofRows amounts rows).values.length < 2 ^ 64 ∧
      result.IsFinite ∧
      (Json.reread? (Value.ofJson? {}) result.toValue.toJson).isSome = true := by
  intro rows result
  have hrows : ∀ row ∈ rows, row.IsFinite :=
    List.forall_mem_cons.mpr ⟨isFinite_amountRow (by decide +kernel),
      List.forall_mem_cons.mpr ⟨isFinite_amountRow (by decide +kernel),
        List.forall_mem_singleton.mpr (isFinite_amountRow (by decide +kernel))⟩⟩
  have hlength : (Entries.ofRows amounts rows).values.length < 2 ^ 64 := by decide +kernel
  have hrange : SumsInRange (-0.0) (Entries.ofRows amounts rows).numbers := by decide +kernel
  obtain ⟨hfinite, hread, -⟩ := finite_rollups
    { relation := "r", target := "t", aggregation := .sum } amounts rows hrows hlength
  have hresult : result.IsFinite := hfinite.mpr ⟨fun _ => hrange, nofun⟩
  exact ⟨hrows, hlength, hresult, hread.mpr hresult⟩

/-- **The sum of two finite amounts may be infinite**, and its cell is not read back. -/
theorem infinite_sum_of_amounts :
    let rows := [amountRow 1e308, amountRow 1e308]
    let result := RollupConfig.calculate { relation := "r", target := "t", aggregation := .sum } amounts
      rows
    (∀ row ∈ rows, row.IsFinite) ∧ result = .number (1 / 0) ∧ ¬ result.IsFinite ∧
      Json.reread? (Value.ofJson? {}) result.toValue.toJson = none := by
  intro rows result
  have hgreat : (amountRow 1e308).IsFinite := isFinite_amountRow (by decide +kernel)
  have hrows : ∀ row ∈ rows, row.IsFinite :=
    List.forall_mem_cons.mpr ⟨hgreat, List.forall_mem_singleton.mpr hgreat⟩
  have hsum : result = .number (1 / 0) := by decide +kernel
  have hinfinite : ¬ result.IsFinite := by
    rw [hsum]
    show ¬ (1 / 0 : Float).isFinite = true
    decide +kernel
  have hread := mt result.isSome_reread?_iff.mp hinfinite
  exact ⟨hrows, hsum, hinfinite, Option.not_isSome_iff_eq_none.mp hread⟩

end FormulaTable
