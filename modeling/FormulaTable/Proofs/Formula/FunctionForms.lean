import FormulaTable.Proofs.Formula.Failure
import FormulaTable.Proofs.Formula.Rewriting
import FormulaTable.Proofs.Text.Case
import Mathlib.Data.List.Nodup

/-!
# Operators as functions

Every operator between two operands, and `not`, is also a built-in function. A call of that function
has the result of the operator, whatever the operands are and however deep they stand, unless a
function is added under its name.
-/

namespace FormulaTable.Formula

/-! ## The library by name -/

/-- No two built-in functions have the same name. -/
theorem nodup_library : (library.map fun b => Text.fold b.name).Nodup := by decide +kernel

/-- A built-in function is found under its name, in small or capital letters. -/
theorem builtin?_of_mem {b : Builtin} (hb : b ∈ library) {name : String}
    (hname : Text.fold name = Text.fold b.name) : builtin? name = some b := by
  rw [builtin?, hname]
  cases h : library.find? fun c => Text.fold c.name = Text.fold b.name with
  | none =>
      rw [List.find?_eq_none] at h
      exact absurd (decide_eq_true rfl) (h b hb)
  | some c =>
      have hkey : Text.fold c.name = Text.fold b.name := by simpa using List.find?_some h
      rw [List.inj_on_of_nodup_map nodup_library (List.mem_of_find?_eq_some h) hb hkey]

/-- A call of a name under which no function is added is a call of the built-in function with this
name. -/
theorem Scope.resolve_of_mem {scope : Scope} {b : Builtin} (hb : b ∈ library) {name : String}
    (hname : Text.fold name = Text.fold b.name) (hcustom : scope.custom[Text.fold name]? = none)
    {count : Nat} (hcount : b.arity.accepts count = true) :
    scope.resolve name count = .ok { name := b.name, arity := b.arity, run := b.run scope.now } := by
  rw [resolve, callable?, hcustom, builtin?_of_mem hb hname]
  exact if_pos hcount

/-! ## The function of an operator -/

namespace BinaryOp

/-- The name of the function that does what the operator does. -/
def function : BinaryOp → String
  | add => "add"
  | subtract => "subtract"
  | multiply => "multiply"
  | divide => "divide"
  | modulo => "mod"
  | equal => "equal"
  | notEqual => "unequal"
  | less => "smaller"
  | lessEqual => "smallerEq"
  | greater => "larger"
  | greaterEqual => "largerEq"
  | and => "and"
  | or => "or"

/-- Every operator but `and` and `or` is a function of exactly two arguments. -/
theorem mem_library (op : BinaryOp) (hand : op ≠ .and) (hor : op ≠ .or) :
    Builtin.pure op.function (.exactly 2) (onTwo op.apply) ∈ library := by
  cases op <;> first | contradiction | simp [library, Library.math, Library.logic, function, apply]

/-- The function of an operator is built in, and has the value of the operator for two arguments. -/
theorem exists_builtin (op : BinaryOp) : ∃ b ∈ library, b.name = op.function ∧
    b.arity.accepts 2 = true ∧ ∀ now v w, b.run now [v, w] = .ok (op.apply v w) := by
  by_cases hand : op = .and
  · subst hand
    refine ⟨.pure "and" (.atLeast 1) Library.all, by simp [library, Library.logic], rfl, rfl, ?_⟩
    intro now v w
    simp [Builtin.pure, Library.all, apply]
  by_cases hor : op = .or
  · subst hor
    refine ⟨.pure "or" (.atLeast 1) Library.any, by simp [library, Library.logic], rfl, rfl, ?_⟩
    intro now v w
    simp [Builtin.pure, Library.any, apply]
  exact ⟨_, op.mem_library hand hor, rfl, rfl, fun _ _ _ => rfl⟩

end BinaryOp

/-- The names of the functions of operators. -/
def operatorFunctions : List String :=
  ["add", "subtract", "multiply", "divide", "mod", "equal", "unequal", "larger", "smaller",
    "largerEq", "smallerEq", "and", "or", "not"]

theorem BinaryOp.function_mem (op : BinaryOp) : op.function ∈ operatorFunctions := by
  cases op <;> decide

/-! ## Operators written as calls -/

/-- The operator of a node as a call of its function, whose name is spelled in some way. -/
def functionForm (spelled : String → String) : Expr → Expr
  | .binary op left right => .call (spelled op.function) [left, right]
  | .unary .not operand => .call (spelled "not") [operand]
  | e => e

namespace Scope

variable {scope : Scope} {name : String}

/-- The call of the function of an operator has the result of the operator. -/
theorem evalAt_call_operator {op : BinaryOp} (hname : Text.fold name = Text.fold op.function)
    (hcustom : scope.custom[Text.fold name]? = none) (depth : Nat) (left right : Expr) :
    scope.evalAt depth (.call name [left, right]) = scope.evalAt depth (.binary op left right) := by
  obtain ⟨b, hb, hbname, harity, hrun⟩ := op.exists_builtin
  have hresolve := resolve_of_mem hb (hname.trans (congrArg Text.fold hbname.symm)) hcustom harity
  rw [evalAt, evalAt, List.length_cons, List.length_singleton, hresolve]
  simp only [evalAll, bind, Except.bind, pure, Except.pure, Callable.call]
  -- both evaluate the left operand and then the right one
  cases scope.evalAt (depth + 1) left with
  | error _ => rfl
  | ok v =>
      cases scope.evalAt (depth + 1) right with
      | error _ => rfl
      | ok w =>
          dsimp only
          rw [hrun]
          rfl

/-- The call of the function `not` has the result of the operator. -/
theorem evalAt_call_not (hname : Text.fold name = Text.fold "not")
    (hcustom : scope.custom[Text.fold name]? = none) (depth : Nat) (operand : Expr) :
    scope.evalAt depth (.call name [operand]) = scope.evalAt depth (.unary .not operand) := by
  have hb : Builtin.pure "not" (.exactly 1) Library.negation ∈ library := by
    simp [library, Library.logic]
  rw [evalAt, evalAt, List.length_singleton, resolve_of_mem hb hname hcustom rfl]
  simp only [evalAll, bind, Except.bind]
  cases scope.evalAt (depth + 1) operand <;> rfl

end Scope

/-- **Operators and functions agree.** In a scope where no function is added under the names of the
functions of operators, a tree whose operators between two operands and `not` are all written as
calls of their functions, spelled in small or capital letters, has the result of the tree, be it a
value or a failure. -/
theorem eval_functionForms (scope : Scope) (spelled : String → String)
    (hspelled : ∀ name, Text.fold (spelled name) = Text.fold name)
    (hcustom : ∀ name ∈ operatorFunctions, scope.custom[Text.fold name]? = none) (e : Expr) :
    scope.eval (e.rewrite (functionForm spelled)) = scope.eval e := by
  refine (Scope.evalAt_rewrite comparison_eq ?_ 1 e).symm
  intro depth e
  have hnone {name : String} (hname : name ∈ operatorFunctions) :
      scope.custom[Text.fold (spelled name)]? = none := by
    rw [hspelled]
    exact hcustom name hname
  match e with
  | .binary op left right =>
      exact (Scope.evalAt_call_operator (hspelled _) (hnone op.function_mem) depth left right).symm
  | .unary .not operand =>
      exact (Scope.evalAt_call_not (hspelled _) (hnone (by decide)) depth operand).symm
  | .unary .negate _ | .unary .plus _ | .number _ | .string _ | .boolean _ | .property _ |
    .call _ _ | .conditional _ _ _ => rfl

/-- A comparison with a remainder under `not`, written with calls: a limit cuts it as it cuts the
operators, and under a greater one it has their value. -/
theorem price_check_as_calls :
    let e : Expr := .unary .not (.binary .lessEqual (.property "price")
      (.binary .modulo (.call "double" [.number 1]) (.number 4)))
    let calls := e.rewrite (functionForm Text.fold)
    let deeper : Scope := { priced with maxDepth := 5 }
    (∀ name, Text.fold (Text.fold name) = Text.fold name) ∧
      (∀ name ∈ operatorFunctions, priced.custom[Text.fold name]? = none) ∧
      calls.functions = ["not", "smallereq", "mod", "double"] ∧
      priced.eval calls = .error (.error (.depthExceeded 3)) ∧
      deeper.eval calls = .ok (.boolean true) := by
  intro e calls deeper
  have hcustom : ∀ name ∈ operatorFunctions, priced.custom[Text.fold name]? = none := by
    have h : ∀ name ∈ operatorFunctions, (priced.custom[Text.fold name]?).isNone = true := by
      decide +kernel
    exact fun name hname => Option.isNone_iff_eq_none.mp (h name hname)
  have hpriced := eval_functionForms priced Text.fold Text.fold_fold hcustom e
  have hdeeper := eval_functionForms deeper Text.fold Text.fold_fold hcustom e
  refine ⟨Text.fold_fold, hcustom, by decide +kernel, hpriced.trans ?_, hdeeper.trans ?_⟩
  · decide +kernel
  · decide +kernel

end FormulaTable.Formula
