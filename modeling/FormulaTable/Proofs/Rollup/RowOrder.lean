import FormulaTable.Proofs.Number.Choice
import FormulaTable.Proofs.Rollup.Showing

/-!
# Rollups and the order of rows

A rollup counts, shows and chooses the same in whatever order the rows come. The counts depend on the
number of entries of some kind; the entries shown once are told by their keys; and the least of some
numbers is told by its position, although which of two equal numbers is chosen depends on the order.
-/

namespace FormulaTable

/-! ## Entries of rows in another order -/

namespace Entries

/-- The same number of rows, and the same entries in some order. -/
structure Reordered (e e' : Entries) : Prop where
  rowCount : e.rowCount = e'.rowCount
  values : e.values.Perm e'.values

theorem reordered_ofRows (target : Column) {rows rows' : List Row} (h : rows.Perm rows') :
    (ofRows target rows).Reordered (ofRows target rows') :=
  ⟨h.length_eq, h.flatMap_right _⟩

namespace Reordered

variable {e e' : Entries} (h : e.Reordered e')

include h

theorem filled : e.filled.Perm e'.filled := h.values.filter _

theorem emptyCount : e.emptyCount = e'.emptyCount := by
  rw [Entries.emptyCount, Entries.emptyCount, h.values.length_eq, h.filled.length_eq]

theorem candidates (target : Column) :
    (Aggregation.candidates target e).Perm (Aggregation.candidates target e') := by
  unfold Aggregation.candidates
  split
  · exact h.values.filterMap _
  · exact h.values.filterMap _

end Reordered

end Entries

/-! ## The rollups -/

/-- As many values have different keys, in whatever order the values come. -/
theorem Value.length_firstPerKey_perm {vs vs' : List Value} (h : vs.Perm vs') :
    (firstPerKey vs).length = (firstPerKey vs').length := by
  rw [length_firstPerKey, length_firstPerKey, List.toFinset_eq_of_perm _ _ (h.map key)]

/-- Both results are null, or both are numbers, which are related. -/
inductive RollupResult.Both (related : Float → Float → Prop) : RollupResult → RollupResult → Prop
  | null : Both related null null
  | number {x y : Float} (h : related x y) : Both related (number x) (number y)

theorem RollupResult.Both.imp {p q : Float → Float → Prop} {r r' : RollupResult} (h : r.Both p r')
    (hpq : ∀ x y, p x y → q x y) : r.Both q r' := by
  cases h with
  | null => exact .null
  | number h => exact .number (hpq _ _ h)

/-- Of the same numbers in another order, the same one is chosen, or one equal to it. -/
theorem RollupResult.best_perm {r : ℚ → ℚ → Prop} [IsLinearOrder ℚ r]
    {choose : Float → Float → Float} (hchoose : Number.Chooses r choose) {xs xs' : List Float}
    (h : xs.Perm xs') :
    (best choose xs).Both (fun x y => x ∈ xs ∧ Number.Same x y) (best choose xs') := by
  cases xs with
  | nil =>
      rw [← h.nil_eq]
      exact .null
  | cons y ys =>
      cases xs' with
      | nil => exact absurd h.eq_nil (List.cons_ne_nil y ys)
      | cons y' ys' =>
          have hbest := hchoose.isBest_foldl y ys
          exact .number ⟨hbest.mem, hbest.same (hchoose.isBest_foldl y' ys') h⟩

/-- The aggregations that are told by numbers of rows and entries. -/
def Aggregation.counting : List Aggregation :=
  [count, countValues, countNotEmpty, countEmpty, countUnique, percentEmpty, percentNotEmpty]

theorem Aggregation.apply_reordered {a : Aggregation} (ha : a ∈ counting) (target : Column)
    {e e' : Entries} (h : e.Reordered e') : a.apply target e = a.apply target e' := by
  simp only [counting, List.mem_cons, List.not_mem_nil, or_false] at ha
  rcases ha with rfl | rfl | rfl | rfl | rfl | rfl | rfl
  · exact congrArg RollupResult.ofCount h.rowCount
  · exact congrArg RollupResult.ofCount h.filled.length_eq
  · exact congrArg RollupResult.ofCount h.filled.length_eq
  · exact congrArg RollupResult.ofCount h.emptyCount
  · exact congrArg RollupResult.ofCount (Value.length_firstPerKey_perm h.values)
  · exact congrArg₂ RollupResult.percent h.emptyCount h.values.length_eq
  · exact congrArg₂ RollupResult.percent h.filled.length_eq h.values.length_eq

open RollupResult in
/-- **Rollups do not depend on the order of the rows.** The counts and the parts in percent are the
same; the entries shown are the same in some order, and those shown once have the same keys and are as
many; and the least and the greatest are both null or equal numbers, if all that is compared are
numbers. Otherwise both may also be what is not a number. -/
theorem rollups_ignore_row_order (config : RollupConfig) (target : Column) {rows rows' : List Row}
    (h : rows.Perm rows') :
    let result (a : Aggregation) := { config with aggregation := a }.calculate target rows
    let result' (a : Aggregation) := { config with aggregation := a }.calculate target rows'
    (∀ a ∈ Aggregation.counting, result a = result' a) ∧
      (∃ vs vs', result .showOriginal = values vs ∧ result' .showOriginal = values vs' ∧
        vs.Perm vs') ∧
      (∃ vs vs', result .showUnique = values vs ∧ result' .showUnique = values vs' ∧
        (∀ k, k ∈ vs.map Value.key ↔ k ∈ vs'.map Value.key) ∧ vs.length = vs'.length) ∧
      ∀ a ∈ [Aggregation.min, .max], (result a).Both Number.Same (result' a) ∧
        ((∀ x ∈ Aggregation.candidates target (Entries.ofRows target rows), x.isNaN = false) →
          (result a).Both (fun x y => (x == y) = true) (result' a)) := by
  intro result result'
  have hentries := Entries.reordered_ofRows target h
  refine ⟨fun a ha => Aggregation.apply_reordered ha target hentries,
    ⟨_, _, rfl, rfl, hentries.filled⟩, ⟨_, _, rfl, rfl, fun k => ?_, ?_⟩, fun a ha => ?_⟩
  · rw [Value.mem_keys_firstPerKey, Value.mem_keys_firstPerKey]
    exact (hentries.filled.map Value.key).mem_iff
  · exact Value.length_firstPerKey_perm hentries.filled
  · simp only [List.mem_cons, List.not_mem_nil, or_false] at ha
    have hbest : (result a).Both (fun x y =>
        x ∈ Aggregation.candidates target (Entries.ofRows target rows) ∧ Number.Same x y) (result' a) := by
      rcases ha with rfl | rfl
      · exact best_perm Number.chooses_least (hentries.candidates target)
      · exact best_perm Number.chooses_greatest (hentries.candidates target)
    refine ⟨hbest.imp fun x y h => h.2, fun hnumbers => hbest.imp fun x y h => ?_⟩
    refine h.2.resolve_right fun hnone => ?_
    rw [hnumbers x h.1] at hnone
    cases hnone.1

/-- A column of amounts. -/
def amounts : Column := { id := "t", name := "Amount", kind := .number, config := none }

/-- A row with an amount. -/
def amountRow (x : Float) : Row := (Row.empty "r").setCell "t" (.number x)

/-- Of two zeros the second is taken as the least, which is another one in another order. -/
theorem least_of_two_zeros :
    let rows := [amountRow 0, amountRow (-0.0)]
    let rows' := [amountRow (-0.0), amountRow 0]
    let least := RollupConfig.calculate { relation := "r", target := "t", aggregation := .min } amounts
    rows.Perm rows' ∧ least rows = .number (-0.0) ∧ least rows' = .number 0 ∧
      (least rows).Both (fun x y => (x == y) = true) (least rows') := by
  intro rows rows' least
  have hperm : rows.Perm rows' := .swap _ _ []
  have hchosen := (rollups_ignore_row_order { relation := "r", target := "t", aggregation := .min }
    amounts hperm).2.2.2 .min List.mem_cons_self
  exact ⟨hperm, by decide +kernel, by decide +kernel, hchosen.2 (by decide +kernel)⟩

end FormulaTable
