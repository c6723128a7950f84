import FormulaTable.Proofs.Formula.FunctionForms

/-!
# The function `if` as a conditional

A call of `if` evaluates all its arguments before it chooses one of them; a conditional evaluates
the condition and the chosen branch. So the conditional has the value of the call if that has one.
It may have a value where the call has none, as the branch that is not chosen may fail.
-/

namespace FormulaTable.Formula

/-- A call of `if` with three arguments as a conditional. -/
def conditionalForm : Expr → Expr
  | .call name [condition, consequent, alternate] =>
    if Text.fold name = Text.fold "if" then .conditional condition consequent alternate
    else .call name [condition, consequent, alternate]
  | e => e

namespace Scope

variable {scope : Scope}

/-- Trees that have values have them one by one. -/
theorem evalAll_cons_eq_ok {depth : Nat} {e : Expr} {es : List Expr} {vs : List Value}
    (h : scope.evalAll depth (e :: es) = .ok vs) :
    ∃ v ws, scope.evalAt depth e = .ok v ∧ scope.evalAll depth es = .ok ws ∧ vs = v :: ws := by
  rw [evalAll] at h
  obtain ⟨v, hv, h⟩ := bind_eq_ok h
  obtain ⟨ws, hws, h⟩ := bind_eq_ok h
  cases h
  exact ⟨v, ws, hv, hws, rfl⟩

/-- A conditional has the value of the call of `if` with its parts. -/
theorem refines_conditional {name : String} (hname : Text.fold name = Text.fold "if")
    (hcustom : scope.custom[Text.fold name]? = none) (depth : Nat)
    (condition consequent alternate : Expr) :
    Refines (scope.evalAt depth (.call name [condition, consequent, alternate]))
      (scope.evalAt depth (.conditional condition consequent alternate)) := by
  have hb : Builtin.pure "if" (.between 2 3) Library.choose ∈ library := by
    simp [library, Library.logic]
  refine compare_of_evalAt_eq comparison_refines (evalAt.eq_def ..) (evalAt.eq_def ..) ?_
  intro v h
  obtain ⟨f, hf, h⟩ := bind_eq_ok h
  obtain ⟨vs, hvs, h⟩ := bind_eq_ok h
  rw [show [condition, consequent, alternate].length = 3 from rfl,
    resolve_of_mem hb hname hcustom rfl] at hf
  cases hf
  obtain ⟨v₁, vs₁, hcondition, hvs₁, rfl⟩ := evalAll_cons_eq_ok hvs
  obtain ⟨v₂, vs₂, hconsequent, hvs₂, rfl⟩ := evalAll_cons_eq_ok hvs₁
  obtain ⟨v₃, vs₃, halternate, -, rfl⟩ := evalAll_cons_eq_ok hvs₂
  -- the call has the value of one of its arguments, which the conditional evaluates
  have hv : (if v₁.toBool then v₂ else v₃) = v := Except.ok.inj h
  simp only [hcondition, bind, Except.bind]
  split
  · next htrue => rw [hconsequent, ← hv, if_pos htrue]
  · next hfalse => rw [halternate, ← hv, if_neg hfalse]

end Scope

/-- **Conditionals refine `if`.** In a scope where no function is added under the name `if`, the
value of a tree is also that of the tree in which all calls of `if` with three arguments are
conditionals. -/
theorem eval_conditionalForms (scope : Scope) (hcustom : scope.custom[Text.fold "if"]? = none)
    (e : Expr) (v : Value) (h : scope.eval e = .ok v) :
    scope.eval (e.rewrite conditionalForm) = .ok v := by
  refine Scope.evalAt_rewrite comparison_refines ?_ 1 e v h
  intro depth e
  unfold conditionalForm
  split
  · split
    · next hname => exact Scope.refines_conditional hname (hname ▸ hcustom) depth _ _ _
    · exact comparison_refines.refl _
  · exact comparison_refines.refl _

/-- A call of `if` in a branch of another one, and a call whose last argument names no column: as a
conditional it has a value. -/
theorem price_label_as_conditional :
    let e : Expr := .call "if" [.binary .greater (.property "price") (.number 1),
      .call "IF" [.boolean false, .string "cheap", .string "dear"], .string "free"]
    let guarded : Expr := .call "if" [.boolean true, .number 1, .property "cost"]
    priced.custom[Text.fold "if"]? = none ∧ priced.eval e = .ok (.text "dear") ∧
      (e.rewrite conditionalForm).functions = [] ∧
      priced.eval (e.rewrite conditionalForm) = .ok (.text "dear") ∧
      priced.eval guarded = .error (.error (.unknownProperty "cost")) ∧
      priced.eval (guarded.rewrite conditionalForm) = .ok (.number 1) := by
  intro e guarded
  have hcustom : priced.custom[Text.fold "if"]? = none := by
    rw [← Option.isNone_iff_eq_none]
    decide +kernel
  have hvalue : priced.eval e = .ok (.text "dear") := by decide +kernel
  refine ⟨hcustom, hvalue, by decide +kernel, eval_conditionalForms priced hcustom e _ hvalue, ?_, ?_⟩
  · decide +kernel
  · decide +kernel

end FormulaTable.Formula
