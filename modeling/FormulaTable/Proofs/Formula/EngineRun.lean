import FormulaTable.Formula.Engine
import FormulaTable.Proofs.Formula.Dependence

/-!
# Runs of an engine

An engine is used by one operation after another. What it remembers is always the tree of the
formula that it is remembered for, so that an operation has the same answer whatever is remembered:
engines that agree in their depth and their functions answer alike, step by step.
-/

namespace FormulaTable.Formula

open Calendar (Instant Fault)

/-! ## Operations -/

/-- What an engine can be asked to do. -/
inductive Operation where
  | parse (formula : String)
  | validate (formula : String)
  | evaluate (formula : String) (row : Row) (columns : List Column) (now : Instant)
  | evaluateOutcome (formula : String) (row : Row) (columns : List Column) (now : Instant)
  | evaluateExpr (e : Expr) (row : Row) (columns : List Column) (now : Instant)
  | clearCache
  | register (name : String) (f : CustomFunction)
  | unregister (name : String)
  | hasFunction (name : String)

/-- What an engine answers. -/
inductive Answer where
  | tree (result : Except SyntaxError Expr)
  | validation (result : Validation)
  | value (result : Except Failure Value)
  | outcome (result : Except Fault EvaluationOutcome)
  | truth (result : Bool)
  | done

namespace Engine

/-- One operation: its answer, and the engine after it. -/
def step (engine : Engine) : Operation → Answer × Engine
  | .parse formula => (engine.parse formula).map .tree id
  | .validate formula => (engine.validate formula).map .validation id
  | .evaluate formula row columns now => (engine.evaluate formula row columns now).map .value id
  | .evaluateOutcome formula row columns now =>
    (engine.evaluateOutcome formula row columns now).map .outcome id
  | .evaluateExpr e row columns now => (.value (engine.evaluateExpr e row columns now), engine)
  | .clearCache => (.done, engine.clearCache)
  | .register name f => (.done, engine.register name f)
  | .unregister name => (engine.unregister name).map .truth id
  | .hasFunction name => (.truth (engine.hasFunction name), engine)

/-- Operations one after another: all their answers, and the engine after them. -/
def run (engine : Engine) : List Operation → List Answer × Engine
  | [] => ([], engine)
  | op :: ops =>
    let (answer, engine) := engine.step op
    let (answers, engine) := engine.run ops
    (answer :: answers, engine)

theorem run_cons (engine : Engine) (op : Operation) (ops : List Operation) :
    engine.run (op :: ops) = ((engine.step op).1 :: ((engine.step op).2.run ops).1,
      ((engine.step op).2.run ops).2) := rfl

theorem run_append (engine : Engine) (ops ops' : List Operation) :
    (engine.run (ops ++ ops')).2 = ((engine.run ops).2.run ops').2 := by
  induction ops generalizing engine with
  | nil => rfl
  | cons op ops ih =>
      rw [List.cons_append, run_cons, run_cons]
      exact ih (engine.step op).2

/-- Some operations make the engine of a new one. -/
def Reachable (engine : Engine) : Prop :=
  ∃ options ops, ((new options).run ops).2 = engine

/-- One operation more makes the next engine. -/
theorem Reachable.step {engine : Engine} (h : engine.Reachable) (op : Operation) :
    (engine.step op).2.Reachable := by
  obtain ⟨options, ops, rfl⟩ := h
  exact ⟨options, ops ++ [op], run_append (new options) ops [op]⟩

/-! ## What is remembered -/

/-- Every remembered tree is the tree of its formula. -/
def Faithful (engine : Engine) : Prop :=
  ∀ formula e, engine.cache[formula]? = some e → Formula.parse formula = .ok e

/-- A new engine remembers nothing. -/
theorem faithful_new (options : EngineOptions) : (new options).Faithful := by
  intro formula e h
  rw [new, Std.ExtTreeMap.getElem?_empty] at h
  cases h

/-- What is remembered does not matter as long as it is right: the engines differ in nothing else
that an answer depends on. -/
structure Alike (engine engine' : Engine) : Prop where
  maxDepth : engine.options.maxDepth = engine'.options.maxDepth
  custom : engine.custom = engine'.custom
  faithful : engine.Faithful
  faithful' : engine'.Faithful

/-! ## Reading -/

/-- Reading changes what is remembered and the count. -/
theorem parse_frame (engine : Engine) (formula : String) :
    (engine.parse formula).2.options = engine.options ∧
      (engine.parse formula).2.custom = engine.custom := by
  have hnew : (engine.parseNew formula).2.options = engine.options ∧
      (engine.parseNew formula).2.custom = engine.custom := by
    unfold Engine.parseNew
    split
    · exact ⟨rfl, rfl⟩
    · split <;> exact ⟨rfl, rfl⟩
  unfold Engine.parse
  split
  · split
    · exact ⟨rfl, rfl⟩
    · exact hnew
  · exact hnew

/-- A formula that is not remembered is read. -/
theorem parseNew_fst (engine : Engine) (formula : String) :
    (engine.parseNew formula).1 = Formula.parse formula := by
  unfold Engine.parseNew
  split
  · rename_i h
    exact h.symm
  · rename_i h
    rw [h]
    split <;> rfl

namespace Faithful

variable {engine : Engine}

/-- A remembered tree is what reading the formula once more would give. -/
theorem parse_fst (h : engine.Faithful) (formula : String) :
    (engine.parse formula).1 = Formula.parse formula := by
  unfold Engine.parse
  split
  · split
    · rename_i hcached
      exact (h formula _ hcached).symm
    · exact parseNew_fst engine formula
  · exact parseNew_fst engine formula

/-- Remembering the tree of a formula for it keeps all remembered trees right. -/
theorem insert (h : engine.Faithful) {formula : String} {e : Expr}
    (he : Formula.parse formula = .ok e) {engine' : Engine} (hcache : engine'.cache = engine.cache.insert formula e) :
    engine'.Faithful := by
  intro text e' he'
  -- the tree is either the new one or was remembered before
  rw [hcache, Std.ExtTreeMap.getElem?_insert] at he'
  split at he'
  · rename_i heq
    rw [← Std.LawfulEqCmp.compare_eq_iff_eq.mp heq, he, Option.some.inj he']
  · exact h text e' he'

theorem parseNew (h : engine.Faithful) (formula : String) :
    (engine.parseNew formula).2.Faithful := by
  unfold Engine.parseNew
  split
  · exact h
  · rename_i he
    split
    · exact h.insert he rfl
    · exact h

theorem parse (h : engine.Faithful) (formula : String) : (engine.parse formula).2.Faithful := by
  unfold Engine.parse
  split
  · split
    · exact h
    · exact h.parseNew formula
  · exact h.parseNew formula

theorem clearCache : engine.clearCache.Faithful := by
  intro formula e h
  rw [Engine.clearCache, Std.ExtTreeMap.getElem?_empty] at h
  cases h

end Faithful

/-! ## Evaluating -/

/-- Checking a formula reads it. -/
theorem validate_eq (engine : Engine) (formula : String) : engine.validate formula =
    (match (engine.parse formula).1 with
      | .ok _ => none
      | .error e => some e,
      (engine.parse formula).2) := by
  unfold Engine.validate
  split
  · rename_i h
    rw [h]
  · rename_i h
    rw [h]

/-- A formula is read and its tree is evaluated. -/
theorem evaluate_eq (engine : Engine) (formula : String) (row : Row) (columns : List Column)
    (now : Instant) : engine.evaluate formula row columns now =
      (match (engine.parse formula).1 with
        | .ok e => engine.evaluateExpr e row columns now
        | .error e => .error (.error (.invalid e)),
        (engine.parse formula).2) := by
  have hframe := engine.parse_frame formula
  unfold Engine.evaluate
  split
  · rename_i h
    rw [h]
  · rename_i h
    rw [h] at hframe ⊢
    dsimp only
    rw [evaluateExpr, evaluateExpr, scope, scope, hframe.1, hframe.2]

/-- The outcome of a formula is what becomes of its value. -/
theorem evaluateOutcome_eq (engine : Engine) (formula : String) (row : Row) (columns : List Column)
    (now : Instant) : engine.evaluateOutcome formula row columns now =
      (match (engine.evaluate formula row columns now).1 with
        | .ok value => .ok { value, error := none }
        | .error (.error e) => .ok { value := .null, error := some e }
        | .error (.abandoned fault) => .error fault,
        (engine.evaluate formula row columns now).2) := by
  unfold Engine.evaluateOutcome
  split
  · rename_i h
    rw [h]
  · rename_i h
    rw [h]
  · rename_i h
    rw [h]

namespace Alike

variable {engine engine' engine'' : Engine}

theorem symm (h : engine.Alike engine') : engine'.Alike engine :=
  ⟨h.maxDepth.symm, h.custom.symm, h.faithful', h.faithful⟩

theorem trans (h : engine.Alike engine') (h' : engine'.Alike engine'') : engine.Alike engine'' :=
  ⟨h.maxDepth.trans h'.maxDepth, h.custom.trans h'.custom, h.faithful, h'.faithful'⟩

/-- Reading a formula leaves an engine that is alike. -/
theorem parse_right (h : engine.Alike engine') (formula : String) :
    engine.Alike (engine'.parse formula).2 := by
  obtain ⟨hoptions, hcustom⟩ := engine'.parse_frame formula
  refine ⟨?_, ?_, h.faithful, h.faithful'.parse formula⟩
  · rw [hoptions, h.maxDepth]
  · rw [hcustom, h.custom]

theorem parse (h : engine.Alike engine') (formula : String) :
    (engine.parse formula).2.Alike (engine'.parse formula).2 :=
  (h.symm.parse_right formula).symm.parse_right formula

theorem evaluateExpr (h : engine.Alike engine') (e : Expr) (row : Row) (columns : List Column)
    (now : Instant) :
    engine.evaluateExpr e row columns now = engine'.evaluateExpr e row columns now := by
  rw [Engine.evaluateExpr, Engine.evaluateExpr, scope, scope, h.maxDepth, h.custom]

theorem parse_fst (h : engine.Alike engine') (formula : String) :
    (engine.parse formula).1 = (engine'.parse formula).1 := by
  rw [h.faithful.parse_fst, h.faithful'.parse_fst]

theorem evaluate_fst (h : engine.Alike engine') (formula : String) (row : Row)
    (columns : List Column) (now : Instant) :
    (engine.evaluate formula row columns now).1 = (engine'.evaluate formula row columns now).1 := by
  rw [evaluate_eq, evaluate_eq, h.parse_fst]
  simp only [h.evaluateExpr]

theorem evaluate (h : engine.Alike engine') (formula : String) (row : Row) (columns : List Column)
    (now : Instant) :
    (engine.evaluate formula row columns now).2.Alike
      (engine'.evaluate formula row columns now).2 := by
  rw [evaluate_eq, evaluate_eq]
  exact h.parse formula

/-- A formula that reads the same values from two rows has the same value for them. -/
theorem evaluate_congr (h : engine.Alike engine') {formula : String} {row row' : Row}
    {columns : List Column} (hvalues : ∀ e, Formula.parse formula = .ok e →
      SameValues columns e.properties row row') (now : Instant) :
    (engine.evaluate formula row columns now).1 =
      (engine'.evaluate formula row' columns now).1 := by
  rw [h.evaluate_fst, evaluate_eq, evaluate_eq, h.faithful'.parse_fst]
  cases hparse : Formula.parse formula with
  | error error => rfl
  | ok e => exact ((engine'.scope row columns now).eval_congr row' e (hvalues e hparse)).symm

/-- **One step.** Alike engines answer alike and stay alike. -/
theorem step (h : engine.Alike engine') (op : Operation) :
    (engine.step op).1 = (engine'.step op).1 ∧ (engine.step op).2.Alike (engine'.step op).2 := by
  cases op with
  | parse formula =>
      refine ⟨?_, h.parse formula⟩
      simp only [Engine.step, Prod.map_fst, h.parse_fst]
  | validate formula =>
      simp only [Engine.step, validate_eq, Prod.map_fst, Prod.map_snd, h.parse_fst,
        true_and]
      exact h.parse formula
  | evaluate formula row columns now =>
      refine ⟨?_, h.evaluate formula row columns now⟩
      simp only [Engine.step, Prod.map_fst, h.evaluate_fst]
  | evaluateOutcome formula row columns now =>
      simp only [Engine.step, evaluateOutcome_eq, Prod.map_fst, Prod.map_snd,
        h.evaluate_fst, true_and]
      exact h.evaluate formula row columns now
  | evaluateExpr e row columns now =>
      refine ⟨?_, h⟩
      simp only [Engine.step, h.evaluateExpr]
  | clearCache => exact ⟨rfl, h.maxDepth, h.custom, Faithful.clearCache, Faithful.clearCache⟩
  | register name f =>
      refine ⟨rfl, h.maxDepth, ?_, h.faithful, h.faithful'⟩
      simp only [Engine.step, Engine.register, h.custom]
  | unregister name =>
      simp only [Engine.step, Engine.unregister, Prod.map_fst, Prod.map_snd, h.custom,
        true_and]
      exact ⟨h.maxDepth, rfl, h.faithful, h.faithful'⟩
  | hasFunction name =>
      refine ⟨?_, h⟩
      simp only [Engine.step, Engine.hasFunction, h.custom]

/-- A run of operations keeps alike engines alike, with the same answers. -/
theorem run (h : engine.Alike engine') (ops : List Operation) :
    (engine.run ops).1 = (engine'.run ops).1 ∧ (engine.run ops).2.Alike (engine'.run ops).2 := by
  induction ops generalizing engine engine' with
  | nil => exact ⟨rfl, h⟩
  | cons op ops ih =>
      obtain ⟨hanswer, hafter⟩ := h.step op
      obtain ⟨hanswers, hend⟩ := ih hafter
      rw [run_cons, run_cons, hanswer, hanswers]
      exact ⟨rfl, hend⟩

end Alike

/-- What an engine remembers is right after every run. -/
theorem Reachable.faithful {engine : Engine} (h : engine.Reachable) : engine.Faithful := by
  obtain ⟨options, ops, rfl⟩ := h
  have hnew : (new options).Alike (new options) :=
    ⟨rfl, rfl, faithful_new options, faithful_new options⟩
  exact (hnew.run ops).2.faithful

end Engine

/-- **What is remembered cannot be noticed.** An engine that remembers trees answers every run of
operations as one that does not, and what it remembers is always the tree of the formula. -/
theorem remembering_is_transparent (maxDepth : Nat) (ops : List Operation) :
    ((Engine.new { maxDepth, remembers := true }).run ops).1 =
        ((Engine.new { maxDepth, remembers := false }).run ops).1 ∧
      ∀ remembers formula e,
        ((Engine.new { maxDepth, remembers }).run ops).2.cache[formula]? = some e →
          parse formula = .ok e := by
  have h : (Engine.new { maxDepth, remembers := true }).Alike
      (Engine.new { maxDepth, remembers := false }) :=
    ⟨rfl, rfl, Engine.faithful_new _, Engine.faithful_new _⟩
  refine ⟨(h.run ops).1, ?_⟩
  intro remembers
  have hreachable : ((Engine.new { maxDepth, remembers }).run ops).2.Reachable := ⟨_, ops, rfl⟩
  exact hreachable.faithful

end FormulaTable.Formula
