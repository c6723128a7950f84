import FormulaTable.Formula.Evaluation
import FormulaTable.Proofs.Formula.Height
import FormulaTable.Proofs.Result

/-!
# Why an evaluation fails

Values never make a formula fail. An evaluation that fails can be explained by the tree, the columns,
the functions and the depth of the scope alone: a property or a function that does not exist, a call
with a wrong number of arguments, a tree that is too tall, or a call of one of the two built-in
functions that can be abandoned.
-/

namespace FormulaTable.Formula

open Calendar (Fault Instant)

/-! ## Calls -/

namespace Expr

mutual

/-- The calls in a tree, each as its function and its number of arguments, in the order of
`functions`. -/
def calls : Expr → List (String × Nat)
  | .number _ | .string _ | .boolean _ | .property _ => []
  | .binary _ left right => left.calls ++ right.calls
  | .unary _ operand => operand.calls
  | .call function args => (function, args.length) :: callsOfAll args
  | .conditional condition consequent alternate =>
    condition.calls ++ consequent.calls ++ alternate.calls

/-- The calls in some trees. -/
def callsOfAll : List Expr → List (String × Nat)
  | [] => []
  | e :: es => e.calls ++ callsOfAll es

end

/-- A tree is at least one high. -/
theorem height_pos (e : Expr) : 0 < e.height := by
  cases e <;> rw [height] <;> omega

end Expr

/-! ## Functions that always have a value -/

/-- The function has a value for all arguments at every time. -/
def Builtin.Total (b : Builtin) : Prop := ∀ now args, ∃ v, b.run now args = .ok v

namespace Builtin

@[simp] theorem total_pure (name : String) (arity : Arity) (f : List Value → Value) :
    (Builtin.pure name arity f).Total :=
  fun _ args => ⟨f args, rfl⟩

@[simp] theorem total_timed (name : String) (f : Instant → Value) : (Builtin.timed name f).Total :=
  fun now _ => ⟨f now, rfl⟩

end Builtin

/-- The built-in functions that may be abandoned. -/
def abandonable : List String := ["startOf", "endOf"]

/-- All other built-in functions have a value for all arguments. -/
theorem library_total {b : Builtin} (hb : b ∈ library) (hname : b.name ∉ abandonable) :
    b.Total := by
  have hmath : ∀ b ∈ Library.math, b.Total := by simp [Library.math]
  have htexts : ∀ b ∈ Library.texts, b.Total := by simp [Library.texts]
  have hlogic : ∀ b ∈ Library.logic, b.Total := by simp [Library.logic]
  have hdates : ∀ b ∈ Library.dates, b.name ∉ abandonable → b.Total := by
    simp [Library.dates, abandonable]
  simp only [library, List.mem_append] at hb
  rcases hb with ((hb | hb) | hb) | hb
  · exact hmath b hb
  · exact htexts b hb
  · exact hlogic b hb
  · exact hdates b hb hname

/-! ## Explanations -/

namespace Scope

/-- What a failure tells of a tree with these properties and calls whose deepest part stands at
`depth`. -/
inductive Explains (scope : Scope) (properties : List String) (calls : List (String × Nat))
    (depth : Nat) : Failure → Prop where
  | unknownProperty {name : String} (hname : name ∈ properties)
      (hcolumn : column? scope.columns name = none) :
      Explains scope properties calls depth (.error (.unknownProperty name))
  | unknownFunction {name : String} {count : Nat} (hcall : (name, count) ∈ calls)
      (hcustom : scope.custom[Text.fold name]? = none) (hbuiltin : builtin? name = none) :
      Explains scope properties calls depth (.error (.unknownFunction name))
  | argumentCount {name : String} {count : Nat} {f : Callable} (hcall : (name, count) ∈ calls)
      (hf : scope.callable? name = some f) (hcount : f.arity.accepts count = false) :
      Explains scope properties calls depth (.error (.argumentCount f.name f.arity count))
  | depthExceeded (hdepth : scope.maxDepth < depth) :
      Explains scope properties calls depth (.error (.depthExceeded scope.maxDepth))
  | abandoned {name : String} {count : Nat} {b : Builtin} {fault : Fault}
      (hcall : (name, count) ∈ calls) (hcustom : scope.custom[Text.fold name]? = none)
      (hb : builtin? name = some b) (hname : b.name ∈ abandonable) :
      Explains scope properties calls depth (.abandoned fault)

variable {scope : Scope} {properties properties' : List String} {calls calls' : List (String × Nat)}
  {depth deepest : Nat} {failure : Failure}

/-- What explains the failure of a part explains that of the whole. -/
theorem Explains.mono (h : scope.Explains properties calls depth failure)
    (hproperties : properties ⊆ properties') (hcalls : calls ⊆ calls') (hdepth : depth ≤ deepest) :
    scope.Explains properties' calls' deepest failure := by
  cases h with
  | unknownProperty hname hcolumn => exact .unknownProperty (hproperties hname) hcolumn
  | unknownFunction hcall hcustom hbuiltin => exact .unknownFunction (hcalls hcall) hcustom hbuiltin
  | argumentCount hcall hf hcount => exact .argumentCount (hcalls hcall) hf hcount
  | depthExceeded h => exact .depthExceeded (Nat.lt_of_lt_of_le h hdepth)
  | abandoned hcall hcustom hb hname => exact .abandoned (hcalls hcall) hcustom hb hname

/-! ## Properties and calls -/

/-- A property has no value only if no column is named. -/
theorem property_eq_error {name : String} (h : scope.property name = .error failure) :
    scope.Explains [name] [] depth failure := by
  unfold property at h
  split at h
  · cases h
  · rename_i hcolumn
    cases h
    exact .unknownProperty (List.mem_singleton_self name) hcolumn

/-- There is no function to call if it is neither an added nor a built-in one. -/
theorem callable?_eq_none {name : String} (h : scope.callable? name = none) :
    scope.custom[Text.fold name]? = none ∧ builtin? name = none := by
  unfold callable? at h
  split at h
  · cases h
  · rename_i hcustom
    exact ⟨hcustom, Option.map_eq_none_iff.mp h⟩

/-- A call is refused for its function or for its number of arguments. -/
theorem resolve_eq_error {name : String} {count : Nat}
    (h : scope.resolve name count = .error failure) :
    scope.Explains [] [(name, count)] depth failure := by
  have hcall : (name, count) ∈ [(name, count)] := List.mem_singleton_self _
  unfold resolve at h
  split at h
  · rename_i hf
    cases h
    obtain ⟨hcustom, hbuiltin⟩ := callable?_eq_none hf
    exact .unknownFunction hcall hcustom hbuiltin
  · rename_i f hf
    split at h
    · cases h
    · rename_i hcount
      cases h
      exact .argumentCount hcall hf (Bool.eq_false_iff.mpr hcount)

/-- A call that is not refused is run by the function of its name. -/
theorem resolve_eq_ok {name : String} {count : Nat} {f : Callable}
    (h : scope.resolve name count = .ok f) : scope.callable? name = some f := by
  unfold resolve at h
  split at h
  · cases h
  · rename_i g hg
    split at h
    · cases h
      exact hg
    · cases h

/-- A call that is not refused is abandoned only by a built-in function that may be. -/
theorem call_eq_error {name : String} {count : Nat} {f : Callable} {args : List Value}
    (hf : scope.resolve name count = .ok f) (h : f.call args = .error failure) :
    scope.Explains [] [(name, count)] depth failure := by
  have hcall : (name, count) ∈ [(name, count)] := List.mem_singleton_self _
  have hresolved := resolve_eq_ok hf
  unfold callable? at hresolved
  split at hresolved
  · -- an added function has a value
    cases hresolved
    cases h
  · rename_i hcustom
    obtain ⟨b, hb, rfl⟩ := Option.map_eq_some_iff.mp hresolved
    change (b.run scope.now args).mapError .abandoned = .error failure at h
    by_cases hname : b.name ∈ abandonable
    · cases hrun : b.run scope.now args with
      | ok v =>
          rw [hrun] at h
          cases h
      | error fault =>
          rw [hrun] at h
          cases h
          exact .abandoned hcall hcustom hb hname
    · obtain ⟨v, hv⟩ := library_total (List.mem_of_find?_eq_some hb) hname scope.now args
      rw [hv] at h
      cases h

/-! ## Trees -/

mutual

/-- A failure of a tree is explained by its properties and calls and by how deep it goes. -/
theorem evalAt_eq_error {depth : Nat} {e : Expr} (h : scope.evalAt depth e = .error failure)
    (hdepth : depth + e.height ≤ deepest + 1) :
    scope.Explains e.properties e.calls deepest failure := by
  rw [evalAt.eq_def] at h
  split at h
  · rename_i hlimit
    cases h
    have hpos := e.height_pos
    exact .depthExceeded (by omega)
  · match e with
    | .number _ | .string _ | .boolean _ => cases h
    | .property name => exact property_eq_error h
    | .binary op left right =>
        rw [Expr.height] at hdepth
        rcases bind_eq_error h with hleft | ⟨v, hv, h⟩
        · exact (evalAt_eq_error hleft (by omega)).mono (List.subset_append_left _ _)
            (List.subset_append_left _ _) le_rfl
        · rcases bind_eq_error h with hright | ⟨w, hw, h⟩
          · exact (evalAt_eq_error hright (by omega)).mono (List.subset_append_right _ _)
              (List.subset_append_right _ _) le_rfl
          · cases h
    | .unary op operand =>
        rw [Expr.height] at hdepth
        rcases bind_eq_error h with hoperand | ⟨v, hv, h⟩
        · exact (evalAt_eq_error hoperand (by omega)).mono (List.Subset.refl _)
            (List.Subset.refl _) le_rfl
        · cases h
    | .call name args =>
        rw [Expr.height] at hdepth
        have hhead : [(name, args.length)] ⊆ (Expr.call name args).calls :=
          List.cons_subset_cons _ (List.nil_subset _)
        rcases bind_eq_error h with hf | ⟨f, hf, h⟩
        · exact (resolve_eq_error hf).mono (List.nil_subset _) hhead le_rfl
        · rcases bind_eq_error h with hargs | ⟨vs, hvs, h⟩
          · exact (evalAll_eq_error hargs (by omega)).mono (List.Subset.refl _)
              (List.subset_cons_self _ _) le_rfl
          · exact (call_eq_error hf h).mono (List.nil_subset _) hhead le_rfl
    | .conditional condition consequent alternate =>
        rw [Expr.height] at hdepth
        rcases bind_eq_error h with hcondition | ⟨v, hv, h⟩
        · exact (evalAt_eq_error hcondition (by omega)).mono
            (List.subset_append_of_subset_left _ (List.subset_append_left _ _))
            (List.subset_append_of_subset_left _ (List.subset_append_left _ _)) le_rfl
        · -- only one branch is evaluated
          split at h
          · exact (evalAt_eq_error h (by omega)).mono
              (List.subset_append_of_subset_left _ (List.subset_append_right _ _))
              (List.subset_append_of_subset_left _ (List.subset_append_right _ _)) le_rfl
          · exact (evalAt_eq_error h (by omega)).mono (List.subset_append_right _ _)
              (List.subset_append_right _ _) le_rfl

/-- So is a failure of some trees. -/
theorem evalAll_eq_error {depth : Nat} {es : List Expr}
    (h : scope.evalAll depth es = .error failure)
    (hdepth : depth + Expr.heightOfAll es ≤ deepest + 1) :
    scope.Explains (Expr.propertiesOfAll es) (Expr.callsOfAll es) deepest failure := by
  match es with
  | [] =>
      rw [evalAll] at h
      cases h
  | e :: es =>
      rw [Expr.heightOfAll] at hdepth
      rw [evalAll] at h
      rcases bind_eq_error h with he | ⟨v, hv, h⟩
      · exact (evalAt_eq_error he (by omega)).mono (List.subset_append_left _ _)
          (List.subset_append_left _ _) le_rfl
      · rcases bind_eq_error h with hes | ⟨vs, hvs, h⟩
        · exact (evalAll_eq_error hes (by omega)).mono (List.subset_append_right _ _)
            (List.subset_append_right _ _) le_rfl
        · cases h

end

/-- Everything that a tree names exists, its calls have numbers of arguments that the functions
accept, and it is no taller than the depth. -/
structure Admits (scope : Scope) (e : Expr) : Prop where
  properties : ∀ name ∈ e.properties, (column? scope.columns name).isSome
  calls : ∀ name count, (name, count) ∈ e.calls →
    ∃ f, scope.callable? name = some f ∧ f.arity.accepts count
  height : e.height ≤ scope.maxDepth

end Scope

/-- **Values make no formula fail.** A tree has a value if everything that it names exists, its calls
have the right numbers of arguments and it is not too tall, unless a call of one of the two
built-in functions that may be abandoned is; and whatever the failure of an evaluation is, it is
explained by the tree. -/
theorem eval_fails_for_structure_only (scope : Scope) (e : Expr) :
    (scope.Admits e →
        (∃ v, scope.eval e = .ok v) ∨ ∃ fault, scope.eval e = .error (.abandoned fault)) ∧
      ∀ failure, scope.eval e = .error failure →
        scope.Explains e.properties e.calls e.height failure := by
  have hexplains : ∀ failure, scope.eval e = .error failure →
      scope.Explains e.properties e.calls e.height failure := by
    intro failure h
    exact Scope.evalAt_eq_error h (by omega)
  refine ⟨?_, hexplains⟩
  intro hadmits
  cases h : scope.eval e with
  | ok v => exact .inl ⟨v, rfl⟩
  | error failure =>
      cases hexplains failure h with
      | unknownProperty hname hcolumn =>
          have hsome := hadmits.properties _ hname
          rw [hcolumn] at hsome
          cases hsome
      | unknownFunction hcall hcustom hbuiltin =>
          obtain ⟨f, hf, -⟩ := hadmits.calls _ _ hcall
          rw [Scope.callable?, hcustom, hbuiltin] at hf
          cases hf
      | argumentCount hcall hf hcount =>
          obtain ⟨g, hg, haccepts⟩ := hadmits.calls _ _ hcall
          rw [hf] at hg
          cases hg
          rw [hcount] at haccepts
          cases haccepts
      | depthExceeded hdepth => exact absurd hadmits.height (Nat.not_le_of_lt hdepth)
      | abandoned hcall hcustom hb hname => exact .inr ⟨_, rfl⟩

/-- A row with a price, and an added function of one argument. -/
def priced : Scope where
  row := (Row.empty "r").setCell "p" (.number 3)
  columns := [{ id := "p", name := "Price", kind := .number, config := none }]
  now := ⟨19737, 36000, 1, by decide, by decide, by decide, by decide⟩
  maxDepth := 3
  custom := (∅ : CustomFunctions).insert "double"
    { arity := .exactly 1, run := fun args => (arg args 0).add (arg args 0) }

/-- A conditional that calls the added function or the start of a week has a value or is abandoned,
and a column that does not exist is what explains the failure of its property. -/
theorem eval_price_admitted :
    let e : Expr := .conditional (.binary .greater (.property "price") (.number 1))
      (.call "double" [.property "p"]) (.call "startof" [.property "PRICE", .string "week"])
    priced.Admits e ∧
      ((∃ v, priced.eval e = .ok v) ∨ ∃ fault, priced.eval e = .error (.abandoned fault)) ∧
      priced.eval (.property "Cost") = .error (.error (.unknownProperty "Cost")) ∧
      priced.Explains ["Cost"] [] 1 (.error (.unknownProperty "Cost")) := by
  intro e
  have hcall {name : String} {count : Nat}
      (h : (priced.callable? name).any (·.arity.accepts count) = true) :
      ∃ f, priced.callable? name = some f ∧ f.arity.accepts count :=
    (Option.any_eq_true _ _).mp h
  have hadmits : priced.Admits e := by
    refine ⟨by decide +kernel, ?_, by decide⟩
    intro name count h
    have hcalls : e.calls = [("double", 1), ("startof", 2)] := rfl
    rw [hcalls] at h
    simp only [List.mem_cons, Prod.mk.injEq, List.not_mem_nil, or_false] at h
    rcases h with ⟨rfl, rfl⟩ | ⟨rfl, rfl⟩
    · exact hcall (by decide +kernel)
    · exact hcall (by decide +kernel)
  have herror : priced.eval (.property "Cost") = .error (.error (.unknownProperty "Cost")) := by
    decide +kernel
  exact ⟨hadmits, (eval_fails_for_structure_only priced e).1 hadmits, herror,
    (eval_fails_for_structure_only priced (.property "Cost")).2 _ herror⟩

end FormulaTable.Formula
