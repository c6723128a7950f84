import FormulaTable.Proofs.Number.Line

/-!
# Chosen numbers

The lesser and the greater of two doubles are chosen by the order of their positions. What is chosen
two by two from a list is in the list and comes before all numbers there, so that another order of the
list changes it to an equal number at most.
-/

namespace FormulaTable.Number

variable {r : ℚ → ℚ → Prop} {choose : Float → Float → Float} {x y : Float} {xs : List Float}

/-- One of two numbers is chosen, by an order of positions; what is not a number is passed over. -/
structure Chooses (r : ℚ → ℚ → Prop) (choose : Float → Float → Float) : Prop where
  eq_or : ∀ x y, choose x y = x ∨ choose x y = y
  left : ∀ x y, x.isNaN = false →
    (choose x y).isNaN = false ∧ r (position (choose x y)) (position x)
  right : ∀ x y, y.isNaN = false →
    (choose x y).isNaN = false ∧ r (position (choose x y)) (position y)

/-- The second number is chosen if the first is none or does not come strictly before it. -/
theorem chooses_ite [IsLinearOrder ℚ r] {before : Float → Float → Bool}
    (hbefore : ∀ x y, before y x = true ↔
      x.isNaN = false ∧ y.isNaN = false ∧ r (position y) (position x)) :
    Chooses r fun x y => if x.isNaN || before y x then y else x where
  eq_or x y := by
    split
    · exact .inr rfl
    · exact .inl rfl
  left x y hx := by
    rw [hx, Bool.false_or]
    split
    · next h => exact ⟨((hbefore x y).mp h).2.1, ((hbefore x y).mp h).2.2⟩
    · exact ⟨hx, refl_of r _⟩
  right x y hy := by
    split
    · exact ⟨hy, refl_of r _⟩
    · next h =>
      rw [Bool.or_eq_true, not_or, Bool.not_eq_true] at h
      refine ⟨h.1, (total_of r _ _).resolve_right fun hr => h.2 ?_⟩
      exact (hbefore x y).mpr ⟨h.1, hy, hr⟩

theorem chooses_least : Chooses (· ≤ ·) least :=
  chooses_ite fun x y => by
    rw [decide_eq_true_iff, le_iff_position]
    tauto

theorem chooses_greatest : Chooses (· ≥ ·) greatest :=
  chooses_ite fun x y => by
    rw [decide_eq_true_iff, le_iff_position]

/-- The number is in the list, and by the order before all that are numbers there. -/
structure IsBest (r : ℚ → ℚ → Prop) (xs : List Float) (x : Float) : Prop where
  mem : x ∈ xs
  before : ∀ y ∈ xs, y.isNaN = false → x.isNaN = false ∧ r (position x) (position y)

section Best

variable [IsLinearOrder ℚ r] (hchoose : Chooses r choose)

include hchoose

/-- What comes before the chosen one of two numbers comes before both. -/
theorem IsBest.of_choose {z : Float} (h : IsBest r (choose x z :: xs) y) :
    IsBest r (x :: z :: xs) y := by
  have hboth {w : Float}
      (hw : (choose x z).isNaN = false ∧ r (position (choose x z)) (position w)) :
      y.isNaN = false ∧ r (position y) (position w) := by
    obtain ⟨hy, hr⟩ := h.before (choose x z) List.mem_cons_self hw.1
    exact ⟨hy, trans_of r hr hw.2⟩
  constructor
  · rcases List.mem_cons.mp h.mem with hy | hy
    · rw [hy]
      rcases hchoose.eq_or x z with hx | hz
      · rw [hx]
        exact List.mem_cons_self
      · rw [hz]
        exact List.mem_cons_of_mem x List.mem_cons_self
    · exact List.mem_cons_of_mem x (List.mem_cons_of_mem z hy)
  · intro w hw hnumber
    rcases List.mem_cons.mp hw with rfl | hw
    · exact hboth (hchoose.left w z hnumber)
    · rcases List.mem_cons.mp hw with rfl | hw
      · exact hboth (hchoose.right x w hnumber)
      · exact h.before w (List.mem_cons_of_mem _ hw) hnumber

/-- What is chosen two by two comes before all numbers. -/
theorem Chooses.isBest_foldl (x : Float) (xs : List Float) :
    IsBest r (x :: xs) (xs.foldl choose x) := by
  induction xs generalizing x with
  | nil =>
      refine ⟨List.mem_singleton_self x, fun y hy hnumber => ?_⟩
      rw [List.mem_singleton.mp hy] at hnumber ⊢
      exact ⟨hnumber, refl_of r _⟩
  | cons z xs ih => exact (ih (choose x z)).of_choose hchoose

end Best

/-- Equal numbers, or two that are none. -/
def Same (x y : Float) : Prop := (x == y) = true ∨ x.isNaN = true ∧ y.isNaN = true

/-- Two that come before the same numbers are equal, if there are numbers at all. -/
theorem IsBest.same [IsLinearOrder ℚ r] {xs' : List Float} (h : IsBest r xs x) (h' : IsBest r xs' y)
    (hperm : xs.Perm xs') : Same x y := by
  by_cases hx : x.isNaN = false
  · obtain ⟨hy, hr'⟩ := h'.before x (hperm.mem_iff.mp h.mem) hx
    obtain ⟨-, hr⟩ := h.before y (hperm.mem_iff.mpr h'.mem) hy
    exact .inl (beq_iff_position.mpr ⟨hx, hy, antisymm_of r hr hr'⟩)
  · refine .inr ⟨Bool.eq_true_of_not_eq_false hx, ?_⟩
    by_contra hy
    exact hx (h.before y (hperm.mem_iff.mpr h'.mem) (Bool.eq_false_of_not_eq_true hy)).1

end FormulaTable.Number
