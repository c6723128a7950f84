import FormulaTable.Proofs.Formula.Failure

/-!
# The depth limit only cuts

An evaluation meets its limit where a part of the tree stands too deep, and then it fails there. As
long as it has not met the limit, the limit plays no part: the value or the error is the one that
every greater limit gives. A limit that is no less than the height of the tree is never met.
-/

namespace FormulaTable.Formula

variable {α β : Type} {limit : Nat}

/-! ## Results that are cut -/

/-- The evaluation has met the limit. -/
def CutAt (limit : Nat) (r : Except Failure α) : Prop :=
  r = .error (.error (.depthExceeded limit))

/-- The second result is the first one, unless the first one is cut. -/
def KeptUnlessCut (limit : Nat) (r r' : Except Failure α) : Prop :=
  ¬ CutAt limit r → r' = r

namespace KeptUnlessCut

variable {r r' : Except Failure α}

theorem refl : KeptUnlessCut limit r r := fun _ => rfl

theorem of_cut (h : CutAt limit r) : KeptUnlessCut limit r r' :=
  fun hkept => absurd h hkept

/-- A computation of two steps is cut if its first step is, and otherwise if its second step is. -/
theorem bind {f f' : α → Except Failure β} (h : KeptUnlessCut limit r r')
    (hf : ∀ a, KeptUnlessCut limit (f a) (f' a)) :
    KeptUnlessCut limit (r.bind f) (r'.bind f') := by
  intro hkept
  cases r with
  | error failure =>
      have hr : r' = .error failure := by
        apply h
        rintro ⟨⟩
        exact hkept rfl
      rw [hr]
      simp only [Except.bind]
  | ok a =>
      have hr : r' = .ok a := by
        apply h
        rintro ⟨⟩
      rw [hr]
      exact hf a hkept

end KeptUnlessCut

/-! ## Raising the limit -/

namespace Scope

/-- The same scope under another limit. -/
def withLimit (scope : Scope) (limit : Nat) : Scope := { scope with maxDepth := limit }

variable (scope : Scope)

mutual

/-- A greater limit keeps every result of a tree that is not cut. -/
theorem evalAt_withLimit (h : scope.maxDepth ≤ limit) {depth : Nat} (e : Expr) :
    KeptUnlessCut scope.maxDepth (scope.evalAt depth e) ((scope.withLimit limit).evalAt depth e) := by
  rw [evalAt.eq_def, evalAt.eq_def (scope.withLimit limit)]
  by_cases hdepth : scope.maxDepth < depth
  · rw [if_pos hdepth]
    exact .of_cut rfl
  have hlimit : ¬ (scope.withLimit limit).maxDepth < depth := by
    show ¬ limit < depth
    omega
  rw [if_neg hdepth, if_neg hlimit]
  -- names and calls are resolved alike, so only the parts of the tree can be cut
  match e with
  | .number _ | .string _ | .boolean _ => exact .refl
  | .property name => exact .refl
  | .binary op left right =>
      exact (evalAt_withLimit h left).bind fun _ =>
        (evalAt_withLimit h right).bind fun _ => .refl
  | .unary op operand => exact (evalAt_withLimit h operand).bind fun _ => .refl
  | .call name args =>
      exact KeptUnlessCut.refl.bind fun f =>
        (evalAll_withLimit h args).bind fun _ => .refl
  | .conditional condition consequent alternate =>
      refine (evalAt_withLimit h condition).bind fun v => ?_
      by_cases hv : v.toBool = true
      · simp only [hv, ↓reduceIte]
        exact evalAt_withLimit h consequent
      · simp only [hv]
        exact evalAt_withLimit h alternate

/-- So it does of some trees. -/
theorem evalAll_withLimit (h : scope.maxDepth ≤ limit) {depth : Nat} (es : List Expr) :
    KeptUnlessCut scope.maxDepth (scope.evalAll depth es)
      ((scope.withLimit limit).evalAll depth es) := by
  match es with
  | [] =>
      rw [evalAll, evalAll]
      exact .refl
  | e :: es =>
      rw [evalAll, evalAll]
      exact (evalAt_withLimit h e).bind fun _ => (evalAll_withLimit h es).bind fun _ => .refl

end

/-- A limit that is no less than the height of a tree is not met. -/
theorem not_cutAt_of_height_le {e : Expr} (h : e.height ≤ scope.maxDepth) (m : Nat) :
    ¬ CutAt m (scope.eval e) := by
  intro hcut
  have hexplains : scope.Explains e.properties e.calls e.height (.error (.depthExceeded m)) :=
    evalAt_eq_error hcut (by omega)
  cases hexplains with
  | depthExceeded hlimit => omega

end Scope

/-- **The depth limit only cuts.** What an evaluation gives without meeting its limit, it gives under
every greater limit, and under all limits from the height of the tree on it gives one and the same
result, which is not that of a limit exceeded. -/
theorem depth_limit_only_cuts (scope : Scope) (e : Expr) :
    (∀ m m', m ≤ m' → (scope.withLimit m).eval e ≠ .error (.error (.depthExceeded m)) →
        (scope.withLimit m').eval e = (scope.withLimit m).eval e) ∧
      ∃ result, (∀ limit, result ≠ .error (.error (.depthExceeded limit))) ∧
        ∀ m, e.height ≤ m → (scope.withLimit m).eval e = result := by
  have hraise (m m' : Nat) (h : m ≤ m') :
      KeptUnlessCut m ((scope.withLimit m).eval e) ((scope.withLimit m').eval e) :=
    (scope.withLimit m).evalAt_withLimit h e
  have huncut (m limit : Nat) (h : e.height ≤ m) : ¬ CutAt limit ((scope.withLimit m).eval e) :=
    (scope.withLimit m).not_cutAt_of_height_le h limit
  refine ⟨hraise, (scope.withLimit e.height).eval e, ?_, ?_⟩
  · intro limit
    exact huncut e.height limit le_rfl
  · intro m hm
    exact hraise e.height m hm (huncut e.height e.height le_rfl)

/-- A conditional of height 4 whose branch of height 3 is not taken: the limit 1 cuts it, and every
limit from 2 on gives its value. -/
theorem depth_limit_skips_branch :
    let e : Expr := .conditional (.boolean true) (.property "price")
      (.unary .negate (.unary .negate (.property "cost")))
    e.height = 4 ∧ (priced.withLimit 1).eval e = .error (.error (.depthExceeded 1)) ∧
      (priced.withLimit 2).eval e = .ok (.number 3) ∧
      ∀ m, 2 ≤ m → (priced.withLimit m).eval e = .ok (.number 3) := by
  intro e
  have hvalue : (priced.withLimit 2).eval e = .ok (.number 3) := by decide
  refine ⟨by decide, by decide, hvalue, ?_⟩
  intro m hm
  rw [(depth_limit_only_cuts priced e).1 2 m hm (by rw [hvalue]; nofun), hvalue]

end FormulaTable.Formula
