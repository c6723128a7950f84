import FormulaTable.Proofs.Number.Double
import FormulaTable.Value.Comparison

/-!
# The order of doubles

Two doubles are compared by what they denote. Read from the other side the comparison is the opposite
one, and what is not a number has no place in the order.
-/

namespace FormulaTable.Number

open Float.Model (UnpackedFloat)

variable {x y : Float}

theorem lt_iff : x < y ↔ (exact x).compare (exact y) = some .lt := by
  show decide ((exact x).lt (exact y) = true) = true ↔ _
  rw [decide_eq_true_iff, UnpackedFloat.lt, beq_iff_eq]

theorem beq_iff_compare : (x == y) = true ↔ (exact x).compare (exact y) = some .eq := by
  show ((exact x).compare (exact y) == some .eq) = true ↔ _
  rw [beq_iff_eq]

/-- What two doubles denote, compared from the other side. -/
theorem compare_swap (u v : UnpackedFloat) : v.compare u = (u.compare v).map Ordering.swap := by
  cases u with
  | notANumber => cases v <;> rfl
  | infinity s =>
      cases v with
      | notANumber => rfl
      | infinity s' => cases s <;> cases s' <;> rfl
      | zero _ | finite _ _ _ _ => cases s <;> rfl
  | zero s =>
      cases v with
      | notANumber | zero _ => rfl
      | infinity s' | finite s' _ _ _ => cases s' <;> rfl
  | finite s m e hm =>
      cases v with
      | notANumber => rfl
      | infinity s' => cases s' <;> rfl
      | zero _ => cases s <;> rfl
      | finite s' n f hn =>
          have hswap : (compare f e).then (compare n m) =
              ((compare e f).then (compare m n)).swap := by
            rw [Ordering.swap_then, Int.compare_swap, Nat.compare_swap]
          -- negative numbers are compared by their magnitudes the other way round
          cases s <;> cases s'
          · exact congrArg (fun o => some o.swap) hswap
          · rfl
          · rfl
          · exact congrArg some hswap

/-- Equality of doubles is symmetric. -/
theorem beq_symm (x y : Float) : (x == y) = (y == x) := by
  rw [Bool.eq_iff_iff, beq_iff_compare, beq_iff_compare, compare_swap (exact x) (exact y)]
  cases h : (exact x).compare (exact y) with
  | none => rfl
  | some o => cases o <;> decide

/-- The order of two numbers is the comparison of what they denote. -/
theorem compareNumbers?_eq (x y : Float) :
    Value.compareNumbers? x y = (exact x).compare (exact y) := by
  unfold Value.compareNumbers?
  simp only [lt_iff, beq_iff_compare, compare_swap (exact x) (exact y)]
  cases (exact x).compare (exact y) with
  | none => rfl
  | some o => cases o <;> rfl

theorem compareNumbers?_swap (x y : Float) :
    Value.compareNumbers? y x = (Value.compareNumbers? x y).map Ordering.swap := by
  rw [compareNumbers?_eq, compareNumbers?_eq, compare_swap]

end FormulaTable.Number
