import FormulaTable.Formula.Evaluation

/-!
# Rewriting a tree

A rule replaces a single node of a tree. Applied to every part of a tree, the smallest parts first,
it makes another tree. How the results of the two trees compare is settled by the rule on single
nodes: for every comparison that is kept when steps of a computation are replaced, it is enough that
the rule keeps it at every depth.
-/

namespace FormulaTable.Formula

/-! ## Comparing results -/

/-- A comparison of results that goes through the steps of a computation. -/
structure Comparison (R : ∀ {α : Type}, Except Failure α → Except Failure α → Prop) : Prop where
  refl : ∀ {α : Type} (r : Except Failure α), R r r
  trans : ∀ {α : Type} {r s t : Except Failure α}, R r s → R s t → R r t
  bind : ∀ {α β : Type} {r s : Except Failure α} {f g : α → Except Failure β},
    R r s → (∀ a, R (f a) (g a)) → R (r.bind f) (s.bind g)

/-- Results may be compared for equality. -/
theorem comparison_eq : Comparison fun r s => r = s where
  refl _ := rfl
  trans := Eq.trans
  bind := by
    rintro α β r s f g rfl hfg
    rw [funext hfg]

/-- The second computation has the value of the first one, if that has one. -/
def Refines {α : Type} (r s : Except Failure α) : Prop := ∀ v, r = .ok v → s = .ok v

theorem comparison_refines : Comparison Refines where
  refl _ _ h := h
  trans h h' v hv := h' v (h v hv)
  bind := by
    intro α β r s f g h hfg v hv
    cases r with
    | error _ => cases hv
    | ok a =>
        rw [h a rfl]
        exact hfg a v hv

/-! ## Rewriting -/

namespace Expr

mutual

/-- The tree after a rule was applied to all its parts, the smallest first. -/
def rewrite (rule : Expr → Expr) : Expr → Expr
  | .number x => rule (.number x)
  | .string s => rule (.string s)
  | .boolean b => rule (.boolean b)
  | .property name => rule (.property name)
  | .binary op left right => rule (.binary op (left.rewrite rule) (right.rewrite rule))
  | .unary op operand => rule (.unary op (operand.rewrite rule))
  | .call name args => rule (.call name (rewriteAll rule args))
  | .conditional condition consequent alternate =>
    rule (.conditional (condition.rewrite rule) (consequent.rewrite rule) (alternate.rewrite rule))

/-- Each of the trees after a rule was applied to all its parts. -/
def rewriteAll (rule : Expr → Expr) : List Expr → List Expr
  | [] => []
  | e :: es => e.rewrite rule :: rewriteAll rule es

end

theorem length_rewriteAll (rule : Expr → Expr) (es : List Expr) :
    (rewriteAll rule es).length = es.length := by
  induction es with
  | nil => rfl
  | cons e es ih => rw [rewriteAll, List.length_cons, List.length_cons, ih]

end Expr

namespace Scope

variable {scope : Scope} {R : ∀ {α : Type}, Except Failure α → Except Failure α → Prop}

/-- Nodes of one kind compare as their parts do: the limit is met by both or by none. -/
theorem compare_of_evalAt_eq (hR : Comparison R) {depth : Nat} {e e' : Expr}
    {r s : Except Failure Value}
    (he : scope.evalAt depth e =
      if scope.maxDepth < depth then .error (.error (.depthExceeded scope.maxDepth)) else r)
    (he' : scope.evalAt depth e' =
      if scope.maxDepth < depth then .error (.error (.depthExceeded scope.maxDepth)) else s)
    (h : R r s) : R (scope.evalAt depth e) (scope.evalAt depth e') := by
  rw [he, he']
  split
  · exact hR.refl _
  · exact h

mutual

/-- **Rewriting by a rule.** A tree compares to the rewritten one as single nodes do to what the
rule makes of them. -/
theorem evalAt_rewrite (hR : Comparison R) {rule : Expr → Expr}
    (hrule : ∀ depth e, R (scope.evalAt depth e) (scope.evalAt depth (rule e))) (depth : Nat)
    (e : Expr) : R (scope.evalAt depth e) (scope.evalAt depth (e.rewrite rule)) := by
  match e with
  | .number _ | .string _ | .boolean _ | .property _ => exact hrule depth _
  | .binary op left right =>
      refine hR.trans ?_ (hrule depth _)
      refine compare_of_evalAt_eq hR (evalAt.eq_def ..) (evalAt.eq_def ..) ?_
      exact hR.bind (evalAt_rewrite hR hrule _ left) fun _ =>
        hR.bind (evalAt_rewrite hR hrule _ right) fun _ => hR.refl _
  | .unary op operand =>
      refine hR.trans ?_ (hrule depth _)
      refine compare_of_evalAt_eq hR (evalAt.eq_def ..) (evalAt.eq_def ..) ?_
      exact hR.bind (evalAt_rewrite hR hrule _ operand) fun _ => hR.refl _
  | .call name args =>
      refine hR.trans ?_ (hrule depth _)
      refine compare_of_evalAt_eq hR (evalAt.eq_def ..) (evalAt.eq_def ..) ?_
      -- the call is resolved by its name and its number of arguments
      dsimp only
      rw [Expr.length_rewriteAll]
      exact hR.bind (hR.refl _) fun _ =>
        hR.bind (evalAll_rewrite hR hrule _ args) fun _ => hR.refl _
  | .conditional condition consequent alternate =>
      refine hR.trans ?_ (hrule depth _)
      refine compare_of_evalAt_eq hR (evalAt.eq_def ..) (evalAt.eq_def ..) ?_
      refine hR.bind (evalAt_rewrite hR hrule _ condition) fun v => ?_
      split
      · exact evalAt_rewrite hR hrule _ consequent
      · exact evalAt_rewrite hR hrule _ alternate

/-- So do some trees to the rewritten ones. -/
theorem evalAll_rewrite (hR : Comparison R) {rule : Expr → Expr}
    (hrule : ∀ depth e, R (scope.evalAt depth e) (scope.evalAt depth (rule e))) (depth : Nat)
    (es : List Expr) : R (scope.evalAll depth es) (scope.evalAll depth (Expr.rewriteAll rule es)) := by
  match es with
  | [] => exact hR.refl _
  | e :: es =>
      rw [Expr.rewriteAll, evalAll, evalAll]
      exact hR.bind (evalAt_rewrite hR hrule _ e) fun _ =>
        hR.bind (evalAll_rewrite hR hrule _ es) fun _ => hR.refl _

end

end Scope

end FormulaTable.Formula
