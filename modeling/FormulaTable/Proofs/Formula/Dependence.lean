import FormulaTable.Formula.Evaluation

/-!
# What an evaluation depends on

The result of a tree depends on the limit, on the values of its properties and on how its calls are
resolved, and on nothing else of a scope. So it depends on a row only through the values of the
columns that the properties of the tree name.
-/

namespace FormulaTable.Formula

/-- The rows hold the same value for every column that one of the properties names. -/
def SameValues (columns : List Column) (properties : List String) (row row' : Row) : Prop :=
  ∀ name ∈ properties, ∀ c, column? columns name = some c → row.value c = row'.value c

/-- Fewer properties name fewer columns. -/
theorem SameValues.mono {columns : List Column} {properties others : List String} {row row' : Row}
    (h : SameValues columns properties row row') (hsub : others ⊆ properties) :
    SameValues columns others row row' :=
  fun name hname => h name (hsub hname)

namespace Scope

/-- A property has the value of the column that it names. -/
theorem property_congr (scope : Scope) (row : Row) (name : String)
    (h : SameValues scope.columns [name] scope.row row) :
    { scope with row }.property name = scope.property name := by
  unfold property
  cases hc : column? scope.columns name with
  | none => rfl
  | some c =>
      dsimp only
      rw [h name (List.mem_singleton_self name) c hc]

/-- The scopes go equally deep, give these properties the same values, and resolve calls of these
functions alike. -/
structure Agrees (scope scope' : Scope) (properties functions : List String) : Prop where
  maxDepth : scope'.maxDepth = scope.maxDepth
  property : ∀ name ∈ properties, scope'.property name = scope.property name
  resolve : ∀ name ∈ functions, ∀ count, scope'.resolve name count = scope.resolve name count

/-- Scopes that agree for a tree agree for its parts. -/
theorem Agrees.mono {scope scope' : Scope} {properties functions properties' functions' : List String}
    (h : scope.Agrees scope' properties functions) (hproperties : properties' ⊆ properties)
    (hfunctions : functions' ⊆ functions) : scope.Agrees scope' properties' functions' where
  maxDepth := h.maxDepth
  property name hname := h.property name (hproperties hname)
  resolve name hname := h.resolve name (hfunctions hname)

section

variable {scope scope' : Scope}

mutual

/-- A tree has the same result in scopes that agree for it. -/
theorem evalAt_agrees (depth : Nat) (e : Expr) (h : scope.Agrees scope' e.properties e.functions) :
    scope'.evalAt depth e = scope.evalAt depth e := by
  rw [evalAt.eq_def, evalAt.eq_def scope, h.maxDepth]
  match e with
  | .number _ | .string _ | .boolean _ => rfl
  | .property name => dsimp only; rw [h.property name (List.mem_singleton_self name)]
  | .binary op left right =>
      dsimp only
      rw [evalAt_agrees _ left (h.mono (List.subset_append_left _ _) (List.subset_append_left _ _)),
        evalAt_agrees _ right
          (h.mono (List.subset_append_right _ _) (List.subset_append_right _ _))]
  | .unary op operand =>
      dsimp only
      rw [evalAt_agrees _ operand h]
  | .call name args =>
      dsimp only
      rw [h.resolve name List.mem_cons_self,
        evalAll_agrees _ args (h.mono (List.Subset.refl _) (List.subset_cons_self _ _))]
  | .conditional condition consequent alternate =>
      have hfirst := h.mono (List.subset_append_left _ _) (List.subset_append_left _ _)
      dsimp only
      rw [evalAt_agrees _ condition
          (hfirst.mono (List.subset_append_left _ _) (List.subset_append_left _ _)),
        evalAt_agrees _ consequent
          (hfirst.mono (List.subset_append_right _ _) (List.subset_append_right _ _)),
        evalAt_agrees _ alternate
          (h.mono (List.subset_append_right _ _) (List.subset_append_right _ _))]

/-- So have some trees. -/
theorem evalAll_agrees (depth : Nat) (es : List Expr)
    (h : scope.Agrees scope' (Expr.propertiesOfAll es) (Expr.functionsOfAll es)) :
    scope'.evalAll depth es = scope.evalAll depth es := by
  match es with
  | [] => rw [evalAll, evalAll]
  | e :: es =>
      rw [evalAll, evalAll,
        evalAt_agrees _ e (h.mono (List.subset_append_left _ _) (List.subset_append_left _ _)),
        evalAll_agrees _ es
          (h.mono (List.subset_append_right _ _) (List.subset_append_right _ _))]

end

end

/-- **What a tree reads.** Its value is the same for rows with the same values in the columns that
its properties name. -/
theorem eval_congr (scope : Scope) (row : Row) (e : Expr)
    (h : SameValues scope.columns e.properties scope.row row) :
    { scope with row }.eval e = scope.eval e :=
  evalAt_agrees 1 e {
    maxDepth := rfl
    property := fun name hname =>
      scope.property_congr row name (h.mono (List.cons_subset.mpr ⟨hname, List.nil_subset _⟩))
    resolve := fun _ _ _ => rfl }

end Scope

end FormulaTable.Formula
