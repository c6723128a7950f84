import FormulaTable.Proofs.Formula.EngineRun
import FormulaTable.Proofs.Formula.Introspection
import FormulaTable.Proofs.Formula.Recognition
import FormulaTable.Proofs.Text.Case
import Mathlib.Data.List.Induction

/-!
# Added functions

A call in a formula stands for the small letters of a name in the text of the formula, and is run by
the function that was last added under a name with these small letters, unless that was removed. A
formula that has no call of a name does not notice a function that is added or removed under it.
-/

namespace FormulaTable.Formula

open Calendar (Instant)

/-! ## Names in the text -/

/-- The name stands somewhere among the tokens, before an opening parenthesis. -/
def CalledIn (kinds : List TokenKind) (name : String) : Prop :=
  ∃ k, CallName k name ∧ [k, .symbol .leftParen] <:+: kinds

/-- The called function is that of a name among the tokens. -/
def Names (kinds : List TokenKind) (called : String) : Prop :=
  ∃ name, CalledIn kinds name ∧ called = Text.fold name

namespace Names

variable {ts us : List TokenKind} {called : String}

theorem mono (h : Names ts called) (hsub : ts <:+: us) : Names us called := by
  obtain ⟨name, ⟨k, hk, hts⟩, rfl⟩ := h
  exact ⟨name, ⟨k, hk, hts.trans hsub⟩, rfl⟩

theorem left (h : Names ts called) : Names (ts ++ us) called :=
  h.mono List.infix_append_left

theorem right (h : Names us called) : Names (ts ++ us) called :=
  h.mono List.infix_append_right

theorem cons (h : Names ts called) (k : TokenKind) : Names (k :: ts) called :=
  h.mono (List.infix_cons List.infix_rfl)

end Names

namespace Phrase

/-- The called functions in what a phrase means. -/
def functions : (p : Phrase) → p.Meaning → List String
  | expression, e | level _, e | links _ _, e | operand, e => e.functions
  | arguments, es | list, es => Expr.functionsOfAll es

/-- The called functions in what a phrase goes on with. -/
def functionsBefore : Phrase → List String
  | links _ left => left.functions
  | expression | level _ | operand | arguments | list => []

end Phrase

/-- The called functions of a phrase are those of what it goes on with and those of names among its
tokens. -/
theorem Derivation.mem_functions {p : Phrase} {ts : List TokenKind} {r : p.Meaning}
    (d : Derivation p ts r) {called : String} (h : called ∈ p.functions r) :
    called ∈ p.functionsBefore ∨ Names ts called := by
  -- most phrases go on with nothing, and the tokens of a part are among those of the whole
  have hnames : ∀ {us : List TokenKind}, called ∈ ([] : List String) ∨ Names us called →
      Names us called := fun h => h.resolve_left List.not_mem_nil
  induction d with
  | plain _ ih => exact ih h
  | conditional _ _ _ ihc iha ihb =>
      right
      rcases List.mem_append.mp h with h | h
      · rcases List.mem_append.mp h with h | h
        · exact (hnames (ihc h)).left
        · exact ((hnames (iha h)).left.cons _).right
      · exact (((hnames (ihb h)).cons _).right.cons _).right
  | chain _ _ ih ih' =>
      right
      rcases ih' h with h | h
      · exact (hnames (ih h)).left
      · exact h.right
  | done => exact .inl h
  | link _ _ _ ih ih' =>
      rcases ih' h with h | h
      · rcases List.mem_append.mp h with h | h
        · exact .inl h
        · exact .inr ((hnames (ih h)).left.cons _)
      · exact .inr (h.right.cons _)
  | sign _ _ _ ih => exact .inr ((hnames (ih h)).cons _)
  | unsigned _ ih => exact ih h
  | literal literal => cases literal <;> cases h
  | parenthesis _ ih => exact .inr ((hnames (ih h)).left.cons _)
  | @call k name _ _ hname _ _ ih =>
      right
      rcases List.mem_cons.mp h with rfl | h
      · exact ⟨name, ⟨k, hname, [], _, rfl⟩, rfl⟩
      · exact ((hnames (ih h)).left.cons _).cons _
  | property => cases h
  | noArguments => cases h
  | someArguments _ ih => exact ih h
  | last _ ih =>
      rw [Phrase.functions, Expr.functionsOfAll, Expr.functionsOfAll, List.append_nil] at h
      exact ih h
  | more _ _ ih ih' =>
      right
      rcases List.mem_append.mp h with h | h
      · exact (hnames (ih h)).left
      · exact ((hnames (ih' h)).cons _).right

/-- The called functions of a formula are those of names in its text. -/
theorem names_of_parse {formula : String} {e : Expr} (h : parse formula = .ok e) :
    ∃ stream, tokenize formula = .ok stream ∧ ∀ called ∈ e.functions, Names stream.kinds called := by
  obtain ⟨stream, hstream, d, -⟩ := parse_eq_ok_iff.mp h
  refine ⟨stream, hstream, ?_⟩
  intro called hcalled
  exact (d.mem_functions hcalled).resolve_left List.not_mem_nil

/-- The called functions of a formula are in small letters. -/
theorem fold_eq_of_mem_functions {formula : String} {e : Expr} (h : parse formula = .ok e)
    {called : String} (hcalled : called ∈ e.functions) : Text.fold called = called := by
  obtain ⟨stream, -, hnames⟩ := names_of_parse h
  obtain ⟨name, -, rfl⟩ := hnames called hcalled
  exact Text.fold_fold name

/-! ## Functions that are not called -/

/-- The same functions are added under the names. -/
def SameFunctions (names : List String) (custom custom' : CustomFunctions) : Prop :=
  ∀ name ∈ names, custom[Text.fold name]? = custom'[Text.fold name]?

/-- A change of the added functions is none for a tree that has the same functions under the names
that it calls. -/
theorem Scope.evalAt_custom (scope : Scope) (custom : CustomFunctions) (depth : Nat) (e : Expr)
    (h : SameFunctions e.functions scope.custom custom) :
    { scope with custom }.evalAt depth e = scope.evalAt depth e := by
  refine evalAt_agrees depth e ⟨rfl, fun _ _ => rfl, ?_⟩
  intro name hname count
  rw [resolve, resolve, callable?, callable?, h name hname]

/-- A tree reports every function that it calls. -/
theorem Expr.mem_functionNames {e : Expr} {name : String} :
    name ∈ e.functionNames ↔ name ∈ e.functions := by
  constructor
  · intro h
    exact firstByKey_subset h
  · intro h
    have hkept : _ ∨ ∃ n ∈ e.functionNames, id n = id name := exists_of_mem h
    rcases hkept with hmet | ⟨n, hn, rfl⟩
    · exact absurd hmet List.not_mem_nil
    · exact hn

namespace Engine

variable {engine engine' : Engine}

/-- Engines with the same functions under the names that a formula calls evaluate it alike. -/
theorem evaluate_custom (hdepth : engine'.options.maxDepth = engine.options.maxDepth)
    (h : engine.Faithful) (h' : engine'.Faithful) {formula : String} {e : Expr}
    (he : Formula.parse formula = .ok e) (hcustom : SameFunctions e.functions engine.custom engine'.custom)
    (row : Row) (columns : List Column) (now : Instant) :
    (engine'.evaluate formula row columns now).1 = (engine.evaluate formula row columns now).1 := by
  rw [evaluate_eq, evaluate_eq, h.parse_fst, h'.parse_fst, he]
  have heval := (engine.scope row columns now).evalAt_custom engine'.custom 1 e hcustom
  show (engine'.scope row columns now).evalAt 1 e = (engine.scope row columns now).evalAt 1 e
  rw [← heval, scope, scope, hdepth]

/-- A change of the function under one name is a change for calls of this name only. -/
theorem evaluate_of_not_called (hreachable : engine.Reachable)
    (hreachable' : engine'.Reachable) (hdepth : engine'.options.maxDepth = engine.options.maxDepth)
    {key : String} (hkey : ∀ name, name ≠ key → engine.custom[name]? = engine'.custom[name]?)
    {formula : String} {e : Expr} (he : Formula.parse formula = .ok e) (hcalls : key ∉ e.functionNames)
    (row : Row) (columns : List Column) (now : Instant) :
    (engine'.evaluate formula row columns now).1 = (engine.evaluate formula row columns now).1 := by
  refine evaluate_custom hdepth hreachable.faithful hreachable'.faithful he ?_ row columns now
  intro name hname
  apply hkey
  rintro rfl
  -- what a formula calls is in small letters already
  rw [fold_eq_of_mem_functions he hname, Expr.mem_functionNames] at hcalls
  exact hcalls hname

end Engine

/-! ## The function last added -/

/-- What an operation makes of the function added under a name, if it touches it: it is replaced or
removed. -/
def Operation.effect? (name : String) : Operation → Option (Option CustomFunction)
  | .register k f => if Text.fold k = Text.fold name then some (some f) else none
  | .unregister k => if Text.fold k = Text.fold name then some none else none
  | _ => none

/-- The function that was added last, in some operations, under a name with the same small letters,
and was not removed since. -/
def lastAdded? (ops : List Operation) (name : String) : Option CustomFunction :=
  (ops.reverse.findSome? (Operation.effect? name)).join

namespace Engine

theorem step_custom (engine : Engine) (op : Operation) (name : String) :
    (engine.step op).2.custom[Text.fold name]? =
      (op.effect? name).getD engine.custom[Text.fold name]? := by
  cases op with
  | parse formula =>
      show (engine.parse formula).2.custom[_]? = _
      rw [(engine.parse_frame formula).2]
      rfl
  | validate formula =>
      show (engine.validate formula).2.custom[_]? = _
      rw [validate_eq, (engine.parse_frame formula).2]
      rfl
  | evaluate formula row columns now =>
      show (engine.evaluate formula row columns now).2.custom[_]? = _
      rw [evaluate_eq, (engine.parse_frame formula).2]
      rfl
  | evaluateOutcome formula row columns now =>
      show (engine.evaluateOutcome formula row columns now).2.custom[_]? = _
      rw [evaluateOutcome_eq, evaluate_eq, (engine.parse_frame formula).2]
      rfl
  | evaluateExpr | clearCache | hasFunction => rfl
  | register k f =>
      show (engine.custom.insert (Text.fold k) f)[_]? = _
      rw [Std.ExtTreeMap.getElem?_insert, Operation.effect?]
      by_cases h : Text.fold k = Text.fold name
      · rw [if_pos h, if_pos (Std.LawfulEqCmp.compare_eq_iff_eq.mpr h), Option.getD_some]
      · rw [if_neg h, if_neg (mt Std.LawfulEqCmp.compare_eq_iff_eq.mp h), Option.getD_none]
  | unregister k =>
      show (engine.custom.erase (Text.fold k))[_]? = _
      rw [Std.ExtTreeMap.getElem?_erase, Operation.effect?]
      by_cases h : Text.fold k = Text.fold name
      · rw [if_pos h, if_pos (Std.LawfulEqCmp.compare_eq_iff_eq.mpr h), Option.getD_some]
      · rw [if_neg h, if_neg (mt Std.LawfulEqCmp.compare_eq_iff_eq.mp h), Option.getD_none]

/-- After any operations of a new engine a name has the function last added under it. -/
theorem run_custom (options : EngineOptions) (ops : List Operation) (name : String) :
    ((new options).run ops).2.custom[Text.fold name]? = lastAdded? ops name := by
  induction ops using List.reverseRecOn with
  | nil =>
      rw [run, new, Std.ExtTreeMap.getElem?_empty]
      rfl
  | append_singleton ops op ih =>
      rw [run_append]
      show (((new options).run ops).2.step op).2.custom[_]? = _
      rw [step_custom, ih, lastAdded?, lastAdded?, List.reverse_append, List.reverse_singleton,
        List.singleton_append, List.findSome?_cons]
      cases op.effect? name <;> rfl

end Engine

/-- A name has the built-in function of its small letters. -/
theorem builtin?_fold (name : String) : builtin? (Text.fold name) = builtin? name := by
  rw [builtin?, Text.fold_fold, builtin?]

namespace Scope

variable {scope : Scope} {depth : Nat} {name : String} {args : List Expr}

/-- A call whose name has an added function. -/
theorem evalAt_call_added {f : CustomFunction} (hdepth : depth ≤ scope.maxDepth)
    (hf : scope.custom[Text.fold name]? = some f) :
    scope.evalAt depth (.call (Text.fold name) args) =
      if f.arity.accepts args.length then (scope.evalAll (depth + 1) args).map f.run
      else .error (.error (.argumentCount (Text.fold name) f.arity args.length)) := by
  rw [evalAt, if_neg (Nat.not_lt.mpr hdepth), resolve, callable?, Text.fold_fold, hf]
  dsimp only
  by_cases harity : f.arity.accepts args.length
  · rw [if_pos harity, if_pos harity]
    cases scope.evalAll (depth + 1) args <;> rfl
  · rw [if_neg harity, if_neg harity]
    rfl

/-- A call whose name has no added function, but a built-in one. -/
theorem evalAt_call_builtin {b : Builtin} (hdepth : depth ≤ scope.maxDepth)
    (hcustom : scope.custom[Text.fold name]? = none) (hb : builtin? name = some b) :
    scope.evalAt depth (.call (Text.fold name) args) =
      if b.arity.accepts args.length then
        (scope.evalAll (depth + 1) args).bind fun vs => (b.run scope.now vs).mapError .abandoned
      else .error (.error (.argumentCount b.name b.arity args.length)) := by
  rw [evalAt, if_neg (Nat.not_lt.mpr hdepth), resolve, callable?, Text.fold_fold, hcustom,
    builtin?_fold, hb]
  dsimp only [Option.map_some]
  by_cases harity : b.arity.accepts args.length
  · rw [if_pos harity, if_pos harity]
    cases scope.evalAll (depth + 1) args <;> rfl
  · rw [if_neg harity, if_neg harity]
    rfl

/-- A call whose name has no function. -/
theorem evalAt_call_unknown (hdepth : depth ≤ scope.maxDepth)
    (hcustom : scope.custom[Text.fold name]? = none) (hb : builtin? name = none) :
    scope.evalAt depth (.call (Text.fold name) args) =
      .error (.error (.unknownFunction (Text.fold name))) := by
  rw [evalAt, if_neg (Nat.not_lt.mpr hdepth), resolve, callable?, Text.fold_fold, hcustom,
    builtin?_fold, hb]
  rfl

end Scope

/-- **Added functions are framed.** After any operations of a new engine, a function added or
removed under a name is nothing to a formula that does not call this name. The functions that a
formula calls are those of names in its text, and a call of a name is run by the function last added
under it and not removed since, or else by the built-in function of this name, or else fails. -/
theorem added_functions_are_framed (options : EngineOptions) (ops : List Operation) :
    let engine := ((Engine.new options).run ops).2
    (∀ (name : String) (f : CustomFunction) (formula : String) (e : Expr),
        parse formula = .ok e → Text.fold name ∉ e.functionNames →
        ∀ (row : Row) (columns : List Column) (now : Instant),
          ((engine.register name f).evaluate formula row columns now).1 =
              (engine.evaluate formula row columns now).1 ∧
            ((engine.unregister name).2.evaluate formula row columns now).1 =
              (engine.evaluate formula row columns now).1) ∧
      (∀ (formula : String) (e : Expr), parse formula = .ok e →
        ∃ stream, tokenize formula = .ok stream ∧
          ∀ called ∈ e.functionNames, ∃ name, CalledIn stream.kinds name ∧ called = Text.fold name) ∧
      ∀ (row : Row) (columns : List Column) (now : Instant) (depth : Nat) (name : String)
        (args : List Expr),
        let scope := engine.scope row columns now
        depth ≤ scope.maxDepth → scope.evalAt depth (.call (Text.fold name) args) =
          match lastAdded? ops name, builtin? name with
          | some f, _ =>
            if f.arity.accepts args.length then (scope.evalAll (depth + 1) args).map f.run
            else .error (.error (.argumentCount (Text.fold name) f.arity args.length))
          | none, some b =>
            if b.arity.accepts args.length then
              (scope.evalAll (depth + 1) args).bind fun vs => (b.run now vs).mapError .abandoned
            else .error (.error (.argumentCount b.name b.arity args.length))
          | none, none => .error (.error (.unknownFunction (Text.fold name))) := by
  intro engine
  have hengine : engine.Reachable := ⟨options, ops, rfl⟩
  refine ⟨?_, ?_, ?_⟩
  · intro name f formula e he hcalls row columns now
    constructor
    · refine Engine.evaluate_of_not_called hengine (hengine.step (.register name f)) rfl ?_ he hcalls
        row columns now
      intro other hother
      show _ = (engine.custom.insert (Text.fold name) f)[other]?
      rw [Std.ExtTreeMap.getElem?_insert, if_neg]
      exact mt Std.LawfulEqCmp.compare_eq_iff_eq.mp hother.symm
    · refine Engine.evaluate_of_not_called hengine (hengine.step (.unregister name)) rfl ?_ he hcalls
        row columns now
      intro other hother
      show _ = (engine.custom.erase (Text.fold name))[other]?
      rw [Std.ExtTreeMap.getElem?_erase, if_neg]
      exact mt Std.LawfulEqCmp.compare_eq_iff_eq.mp hother.symm
  · intro formula e he
    obtain ⟨stream, hstream, hnames⟩ := names_of_parse he
    refine ⟨stream, hstream, ?_⟩
    intro called hcalled
    exact hnames called (Expr.mem_functionNames.mp hcalled)
  · intro row columns now depth name args scope hdepth
    have hcustom : scope.custom[Text.fold name]? = lastAdded? ops name :=
      Engine.run_custom options ops name
    cases hadded : lastAdded? ops name with
    | some f => exact Scope.evalAt_call_added hdepth (hcustom.trans hadded)
    | none =>
        cases hb : builtin? name with
        | some b => exact Scope.evalAt_call_builtin hdepth (hcustom.trans hadded) hb
        | none => exact Scope.evalAt_call_unknown hdepth (hcustom.trans hadded) hb

/-- A function that gives a text. -/
def giving (text : String) : CustomFunction where
  arity := .exactly 0
  run := fun _ => .text text

/-- Of two functions added under one name the second one is called, and a formula that calls another
name does not notice that the first name is given up. -/
theorem second_greeting_is_called :
    let ops : List Operation :=
      [.register "Greet" (giving "hello"), .register "GREET" (giving "goodbye"), .unregister "part"]
    let engine := ((Engine.new {}).run ops).2
    let now : Instant := ⟨0, 0, 0, by decide, by decide, by decide, by decide⟩
    (engine.scope (Row.empty "r") [] now).evalAt 1 (.call (Text.fold "Greet") []) =
        .ok (.text "goodbye") ∧
      ((engine.unregister "gREET").2.evaluate "upper(\"a\")" (Row.empty "r") [] now).1 =
        (engine.evaluate "upper(\"a\")" (Row.empty "r") [] now).1 := by
  intro ops engine now
  obtain ⟨hframe, -, hcall⟩ := added_functions_are_framed {} ops
  have hdepth : engine.options.maxDepth = 100 := by decide +kernel
  constructor
  · have hgreet : Text.fold "GREET" = Text.fold "Greet" := by decide +kernel
    have hpart : Text.fold "part" ≠ Text.fold "Greet" := by decide +kernel
    have hadded : lastAdded? ops "Greet" = some (giving "goodbye") := by
      simp [ops, lastAdded?, Operation.effect?, hgreet, hpart]
    rw [hcall (Row.empty "r") [] now 1 "Greet" [] (by show 1 ≤ engine.options.maxDepth; omega), hadded]
    rfl
  · have hnames : (parse "upper(\"a\")").toOption.map Expr.functionNames = some ["upper"] := by
      decide +kernel
    cases he : parse "upper(\"a\")" with
    | error e =>
        rw [he] at hnames
        cases hnames
    | ok e =>
        rw [he] at hnames
        have hcalls : Text.fold "gREET" ∉ e.functionNames := by
          rw [Option.some.inj hnames]
          decide +kernel
        exact (hframe "gREET" (giving "") _ e he hcalls (Row.empty "r") [] now).2

end FormulaTable.Formula
