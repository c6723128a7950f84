import FormulaTable.Proofs.Formula.EngineRun
import FormulaTable.Proofs.Formula.Failure
import FormulaTable.Proofs.Formula.FiniteLibrary
import FormulaTable.Proofs.Formula.Numerals

/-!
# Finite results

A formula has no infinite result, and none that is not a number, unless there is such a value in the
row, an added function gives one, or a numeral in its text overflows. The last is not guarded: a
numeral that is too great for a double is read as infinity, and signs, the least and greatest of
some numbers, and choices hand it on.
-/

namespace FormulaTable

/-- All values of the row are finite. -/
structure Row.IsFinite (r : Row) : Prop where
  cells : ∀ (id : String) (v : Value), r.cells[id]? = some v → v.IsFinite
  computed : ∀ (id : String) (v : Value), r.computed[id]? = some v → v.IsFinite

namespace Row.IsFinite

variable {r : Row}

theorem empty (id : String) : (Row.empty id).IsFinite := by
  constructor
  · intro key v h
    rw [Row.empty, Std.ExtTreeMap.getElem?_empty] at h
    cases h
  · intro key v h
    rw [Row.empty, Std.ExtTreeMap.getElem?_empty] at h
    cases h

theorem cell (h : r.IsFinite) (id : String) : (r.cell id).IsFinite := by
  unfold Row.cell
  cases hv : r.cells[id]? with
  | none => trivial
  | some v => exact h.cells id v hv

theorem setCell (h : r.IsFinite) {v : Value} (hv : v.IsFinite) (id : String) :
    (r.setCell id v).IsFinite := by
  refine ⟨fun key w hw => ?_, h.computed⟩
  rw [Row.setCell, Std.ExtTreeMap.getElem?_insert] at hw
  split at hw
  · obtain rfl := Option.some.inj hw
    exact hv
  · exact h.cells key w hw

/-- The value of a column is one of the row, or null. -/
theorem value (h : r.IsFinite) (c : Column) : (r.value c).IsFinite := by
  unfold Row.value
  split
  · cases hv : r.computed[c.id]? with
    | none => exact h.cell c.id
    | some v => exact h.computed c.id v hv
  · exact h.cell c.id

end Row.IsFinite

namespace Formula

open Calendar (Instant)

/-- All added functions make finite values of finite values. -/
def CustomFunctions.KeepFinite (custom : CustomFunctions) : Prop :=
  ∀ (key : String) (f : CustomFunction), custom[key]? = some f →
    ∀ args : List Value, (∀ v ∈ args, v.IsFinite) → (f.run args).IsFinite

namespace Scope

variable {scope : Scope}

/-- A call of finite values has a finite value. -/
theorem call_isFinite (hcustom : CustomFunctions.KeepFinite scope.custom) {name : String} {count : Nat}
    {f : Callable} {args : List Value} {v : Value} (hf : scope.resolve name count = .ok f)
    (hargs : ∀ v ∈ args, v.IsFinite) (h : f.call args = .ok v) : v.IsFinite := by
  have hresolved := resolve_eq_ok hf
  unfold callable? at hresolved
  split at hresolved
  · next g hg =>
    obtain rfl := Option.some.inj hresolved
    obtain rfl := Except.ok.inj h
    exact hcustom _ g hg args hargs
  · obtain ⟨b, hb, rfl⟩ := Option.map_eq_some_iff.mp hresolved
    change (b.run scope.now args).mapError Failure.abandoned = .ok v at h
    cases hrun : b.run scope.now args with
    | ok w =>
        rw [hrun] at h
        obtain rfl := Except.ok.inj h
        exact library_keepsFinite b (List.mem_of_find?_eq_some hb) _ _ _ hargs hrun
    | error fault =>
        rw [hrun] at h
        cases h

mutual

/-- A tree of finite numbers has a finite value. -/
theorem evalAt_isFinite (hrow : scope.row.IsFinite)
    (hcustom : CustomFunctions.KeepFinite scope.custom) {depth : Nat} {e : Expr} {v : Value}
    (he : ∀ x ∈ e.numbers, x.isFinite = true) (h : scope.evalAt depth e = .ok v) : v.IsFinite := by
  rw [evalAt.eq_def] at h
  split at h
  · cases h
  · match e with
    | .number x =>
        obtain rfl := Except.ok.inj h
        exact he x (List.mem_singleton_self x)
    | .string _ | .boolean _ =>
        obtain rfl := Except.ok.inj h
        trivial
    | .property name =>
        change scope.property name = .ok v at h
        unfold property at h
        split at h
        · obtain rfl := Except.ok.inj h
          exact hrow.value _
        · cases h
    | .binary op left right =>
        -- the result is guarded, so nothing is asked of the operands
        obtain ⟨u, -, h⟩ := bind_eq_ok h
        obtain ⟨w, -, h⟩ := bind_eq_ok h
        obtain rfl := Except.ok.inj h
        exact op.isFinite_apply u w
    | .unary op operand =>
        have hoperand : ∀ x ∈ operand.numbers, x.isFinite = true := he
        obtain ⟨u, hu, h⟩ := bind_eq_ok h
        obtain rfl := Except.ok.inj h
        exact op.isFinite_apply (evalAt_isFinite hrow hcustom hoperand hu)
    | .call name args =>
        have hargs : ∀ x ∈ Expr.numbersOfAll args, x.isFinite = true := he
        obtain ⟨f, hf, h⟩ := bind_eq_ok h
        obtain ⟨vs, hvs, h⟩ := bind_eq_ok h
        exact call_isFinite hcustom hf (evalAll_isFinite hrow hcustom hargs hvs) h
    | .conditional condition consequent alternate =>
        -- the condition only chooses: its value does not become the result
        obtain ⟨u, -, h⟩ := bind_eq_ok h
        rw [Expr.numbers] at he
        split at h
        · refine evalAt_isFinite hrow hcustom (fun x hx => he x ?_) h
          exact List.mem_append_left _ (List.mem_append_right _ hx)
        · exact evalAt_isFinite hrow hcustom (fun x hx => he x (List.mem_append_right _ hx)) h

/-- So have some trees of finite numbers. -/
theorem evalAll_isFinite (hrow : scope.row.IsFinite)
    (hcustom : CustomFunctions.KeepFinite scope.custom) {depth : Nat} {es : List Expr}
    {vs : List Value} (hes : ∀ x ∈ Expr.numbersOfAll es, x.isFinite = true)
    (h : scope.evalAll depth es = .ok vs) : ∀ v ∈ vs, v.IsFinite := by
  match es with
  | [] =>
      rw [evalAll] at h
      obtain rfl := Except.ok.inj h
      exact List.forall_mem_nil _
  | e :: es =>
      rw [evalAll] at h
      rw [Expr.numbersOfAll] at hes
      obtain ⟨u, hu, h⟩ := bind_eq_ok h
      obtain ⟨us, hus, h⟩ := bind_eq_ok h
      obtain rfl := Except.ok.inj h
      rw [List.forall_mem_cons]
      constructor
      · exact evalAt_isFinite hrow hcustom (fun x hx => hes x (List.mem_append_left _ hx)) hu
      · exact evalAll_isFinite hrow hcustom (fun x hx => hes x (List.mem_append_right _ hx)) hus

end

end Scope

/-- **Finite numerals make finite results.** After any operations of a new engine, with added
functions that make finite values of finite values: a formula whose numerals are finite has a finite
value for every row of finite values, whatever the columns and the clock. Its numerals are read as the
nearest doubles, which are finite below the middle between the greatest double and the power of two
that would come next. A formula that is a numeral alone has its number as value, finite or not. -/
theorem finite_numerals_make_finite_results (options : EngineOptions) (ops : List Operation) :
    let engine := ((Engine.new options).run ops).2
    CustomFunctions.KeepFinite engine.custom →
      ∀ (formula : String) (e : Expr), parse formula = .ok e →
        ((∀ x ∈ e.numbers, x.isFinite = true) →
            ∀ (row : Row) (columns : List Column) (now : Instant) (v : Value), row.IsFinite →
              (engine.evaluate formula row columns now).1 = .ok v → v.IsFinite) ∧
          (∀ x ∈ e.numbers, ∃ lexeme d, lexeme <:+: formula.toList ∧
            Number.readDecimal? lexeme = some d ∧ x = d.toFloat ∧
            (x.isFinite = true ↔ d.value < Number.overflow)) ∧
          ∀ x, e = .number x → 0 < engine.options.maxDepth →
            ∀ (row : Row) (columns : List Column) (now : Instant),
              (engine.evaluate formula row columns now).1 = .ok (.number x) := by
  intro engine hcustom formula e he
  have hreachable : engine.Reachable := ⟨options, ops, rfl⟩
  have hvalue (row : Row) (columns : List Column) (now : Instant) :
      (engine.evaluate formula row columns now).1 = (engine.scope row columns now).evalAt 1 e := by
    rw [Engine.evaluate_eq, hreachable.faithful.parse_fst, he]
    rfl
  refine ⟨?_, ?_, ?_⟩
  · intro hfinite row columns now v hrow hv
    rw [hvalue] at hv
    exact Scope.evalAt_isFinite hrow hcustom hfinite hv
  · intro x hx
    obtain ⟨lexeme, d, hlexeme, hd, rfl⟩ := numbers_writtenIn he hx
    exact ⟨lexeme, d, hlexeme, hd, rfl, d.rounds.isFinite_iff⟩
  · rintro x rfl hdepth row columns now
    rw [hvalue, Scope.evalAt, if_neg]
    exact Nat.not_lt.mpr hdepth

/-- A function that doubles a number. -/
def doubling : CustomFunction where
  arity := .exactly 1
  run := fun args => (arg args 0).add (arg args 0)

/-- A moment on the second day of 1970. -/
def moment : Instant := ⟨1, 7, 2, by decide, by decide, by decide, by decide⟩

/-- The double of a great number is still finite, and so is its negative. -/
theorem great_double_is_finite :
    let engine := ((Engine.new {}).run [.register "double" doubling]).2
    CustomFunctions.KeepFinite engine.custom ∧ (Row.empty "r").IsFinite ∧
      ∃ e, parse "-double(8e307)" = .ok e ∧ e.numbers = [8e307] ∧
        (∀ x ∈ e.numbers, x.isFinite = true) ∧
        (engine.evaluate "-double(8e307)" (Row.empty "r") [] moment).1 = .ok (.number (-16e307)) ∧
        (Value.number (-16e307)).IsFinite := by
  intro engine
  have hcustom : CustomFunctions.KeepFinite engine.custom := by
    intro key f hf args _
    have hkey : engine.custom[key]? =
        if compare (Text.fold "double") key = .eq then some doubling else none := by
      show ((∅ : CustomFunctions).insert (Text.fold "double") doubling)[key]? = _
      rw [Std.ExtTreeMap.getElem?_insert, Std.ExtTreeMap.getElem?_empty]
    rw [hkey] at hf
    split at hf
    · obtain rfl := Option.some.inj hf
      exact Value.isFinite_add
    · cases hf
  have hnumbers : (parse "-double(8e307)").toOption.map Expr.numbers = some [8e307] := by
    decide +kernel
  have hvalue : (engine.evaluate "-double(8e307)" (Row.empty "r") [] moment).1 =
      .ok (.number (-16e307)) := by
    decide +kernel
  cases he : parse "-double(8e307)" with
  | error cause =>
      rw [he] at hnumbers
      cases hnumbers
  | ok e =>
      rw [he] at hnumbers
      have hnumbers : e.numbers = [8e307] := Option.some.inj hnumbers
      have hfinite : ∀ x ∈ e.numbers, x.isFinite = true := by
        rw [hnumbers]
        decide +kernel
      have hresults := finite_numerals_make_finite_results {} [.register "double" doubling] hcustom _ e he
      exact ⟨hcustom, .empty "r", e, rfl, hnumbers, hfinite, hvalue,
        hresults.1 hfinite _ [] moment _ (.empty "r") hvalue⟩

/-- A numeral that overflows makes an infinite value out of a row without values. -/
theorem not_all_results_finite :
    ¬ ∀ (formula : String) (row : Row) (columns : List Column) (now : Instant) (v : Value),
      row.IsFinite → ((Engine.new {}).evaluate formula row columns now).1 = .ok v → v.IsFinite := by
  intro h
  have hvalue : ((Engine.new {}).evaluate "-1e999" (Row.empty "r") [] moment).1 =
      .ok (.number (-(1 / 0))) := by
    decide +kernel
  have hfinite : (-(1 / 0) : Float).isFinite = true :=
    h "-1e999" (Row.empty "r") [] moment _ (.empty "r") hvalue
  exact absurd hfinite (by decide +kernel)

end Formula

end FormulaTable
