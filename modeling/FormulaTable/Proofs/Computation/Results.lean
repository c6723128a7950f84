import FormulaTable.Proofs.Computation.Convergence

/-!
# Columns computed one after another

Computing a row is computing its derived columns alone, one after another, each on the row with the
values before it laid over. The outcome lists these values and the errors of the columns that failed,
and its counts say how many columns of each kind there were.
-/

namespace FormulaTable

open Calendar (Fault)
open Formula (Engine)

/-! ## Values laid over a row -/

namespace Row

variable {row : Row} {values others : List (String × Value)}

/-- The row with values laid over its computed ones. Of several for one column the last counts. -/
def overlaid (row : Row) (values : List (String × Value)) : Row :=
  { row with computed := row.computed.insertMany values }

theorem overlaid_nil : row.overlaid [] = row := by
  rw [overlaid, Std.ExtTreeMap.insertMany_nil]

theorem overlaid_singleton (id : String) (v : Value) :
    row.overlaid [(id, v)] = row.setComputed id v := by
  rw [overlaid, Std.ExtTreeMap.insertMany_list_singleton]
  rfl

theorem overlaid_append :
    row.overlaid (values ++ others) = (row.overlaid values).overlaid others := by
  rw [overlaid, Std.ExtTreeMap.insertMany_append]
  rfl

theorem overlaid_cons (entry : String × Value) :
    row.overlaid (entry :: values) = (row.overlaid [entry]).overlaid values := by
  rw [← overlaid_append, List.singleton_append]

/-- An outcome is stored by laying its values over. -/
theorem store_eq_overlaid (row : Row) (o : Outcome) : row.store o = row.overlaid o.values := by
  unfold store
  induction o.values generalizing row with
  | nil => exact overlaid_nil.symm
  | cons entry values ih =>
      rw [List.foldl_cons, ih, overlaid_cons, overlaid_singleton]

end Row

/-! ## The result of a column -/

/-- A derived column with its result. -/
structure ColumnResult where
  column : Column
  result : Except ComputationError Value

namespace ColumnResult

/-- The value of the column, null if it failed. -/
def value (r : ColumnResult) : Value := r.result.toOption.getD .null

/-- The value under the id of the column. -/
def entry (r : ColumnResult) : String × Value := (r.column.id, r.value)

/-- The error under the id of the column, if it failed. -/
def failure? (r : ColumnResult) : Option (String × ComputationError) :=
  match r.result with
  | .ok _ => none
  | .error e => some (r.column.id, e)

variable {c : Column} {v : Value} {e : ComputationError}

@[simp] theorem entry_ok : (ColumnResult.mk c (.ok v)).entry = (c.id, v) := rfl

@[simp] theorem entry_error : (ColumnResult.mk c (.error e)).entry = (c.id, .null) := rfl

@[simp] theorem failure?_ok : (ColumnResult.mk c (.ok v)).failure? = none := rfl

@[simp] theorem failure?_error : (ColumnResult.mk c (.error e)).failure? = some (c.id, e) := rfl

end ColumnResult

/-- The outcome of columns with these results when some other ones were skipped. -/
def Outcome.ofResults (results : List ColumnResult) (skipped : Nat) : Outcome where
  values := results.map ColumnResult.entry
  errors := results.filterMap ColumnResult.failure?
  statistics := {
    formulas := results.countP (·.column.kind = .formula)
    rollups := results.countP (·.column.kind ≠ .formula)
    errors := (results.filterMap ColumnResult.failure?).length
    skipped }

namespace Outcome

theorem ofResults_cons (r : ColumnResult) (results : List ColumnResult) (skipped : Nat) :
    ofResults (r :: results) skipped =
      ofColumn r.column.id r.column.kind r.result ++ ofResults results skipped := by
  have hadd (s t : Statistics) : s + t = ⟨s.formulas + t.formulas, s.rollups + t.rollups,
      s.errors + t.errors, s.skipped + t.skipped⟩ := rfl
  have happend (a b : Outcome) : a ++ b = ⟨a.values ++ b.values, a.errors ++ b.errors,
      a.statistics + b.statistics⟩ := rfl
  obtain ⟨c, result⟩ := r
  rw [happend, hadd]
  cases result with
  | ok v =>
      by_cases hkind : c.kind = .formula
      · simp [ofResults, ofColumn, List.filterMap_cons, hkind, Nat.add_comm]
      · simp [ofResults, ofColumn, List.filterMap_cons, hkind, Nat.add_comm]
  | error e =>
      by_cases hkind : c.kind = .formula
      · simp [ofResults, ofColumn, hkind, Nat.add_comm]
      · simp [ofResults, ofColumn, hkind, Nat.add_comm]

/-- One column more was skipped. -/
theorem ofResults_succ (results : List ColumnResult) (skipped : Nat) :
    ofResults results (skipped + 1) = ofSkipped ++ ofResults results skipped := by
  have happend (a b : Outcome) : a ++ b = ⟨a.values ++ b.values, a.errors ++ b.errors,
      ⟨a.statistics.formulas + b.statistics.formulas, a.statistics.rollups + b.statistics.rollups,
        a.statistics.errors + b.statistics.errors,
        a.statistics.skipped + b.statistics.skipped⟩⟩ := rfl
  rw [happend]
  simp [ofResults, ofSkipped, Nat.add_comm]

end Outcome

/-! ## Columns alone -/

namespace Setting

variable {s : Setting} {row : Row} {c : Column} {cs : List Column} {start engine engine' : Engine}

/-- The column is derived and not skipped. -/
def computes (s : Setting) (c : Column) : Bool := c.kind.isDerived && !s.skips.skips c.kind

/-- The column is derived but skipped. -/
def leaves (s : Setting) (c : Column) : Bool := c.kind.isDerived && s.skips.skips c.kind

/-- The result of computing a column alone. -/
def alone (s : Setting) (engine : Engine) (row : Row) (c : Column) :
    Except Fault (Except ComputationError Value) :=
  (s.derived engine row c).map Prod.fst

/-- The results of columns computed alone one after another, each on the row with the values before
it laid over. -/
def results (s : Setting) (engine : Engine) (row : Row) :
    List Column → Except Fault (List ColumnResult)
  | [] => .ok []
  | c :: cs => do
    let r : ColumnResult := ⟨c, ← s.alone engine row c⟩
    let rs ← s.results engine (row.overlaid [r.entry]) cs
    return r :: rs

theorem results_cons {result : Except ComputationError Value}
    (h : s.alone engine row c = .ok result) :
    s.results engine row (c :: cs) =
      (s.results engine (row.overlaid [(ColumnResult.mk c result).entry]) cs).map
        (⟨c, result⟩ :: ·) := by
  rw [results, h]
  rfl

theorem results_cons_of_error {fault : Fault} (h : s.alone engine row c = .error fault) :
    s.results engine row (c :: cs) = .error fault := by
  rw [results, h]
  rfl

/-! ## Computations that follow each other -/

/-- The second computation gives what the first one does, in the form `f`, with an engine like the
one at the start, or both are abandoned for the same reason. -/
inductive Yields {α β : Type} (start : Engine) (f : α → β) :
    Except Fault α → Except Fault (β × Engine) → Prop where
  | ok {a : α} {b : β} {engine : Engine} (hb : f a = b) (h : start.Alike engine) :
      Yields start f (.ok a) (.ok (b, engine))
  | error {fault : Fault} : Yields start f (.error fault) (.error fault)

/-- What follows has only to follow from each result. -/
theorem Yields.bind {α β γ δ : Type} {f : α → β} {g : γ → δ} {m : Except Fault α}
    {m' : Except Fault (β × Engine)} {k : α → Except Fault γ}
    {k' : β × Engine → Except Fault (δ × Engine)} (h : Yields start f m m')
    (hk : ∀ (a : α) (engine : Engine), start.Alike engine → Yields start g (k a) (k' (f a, engine))) :
    Yields start g (m >>= k) (m' >>= k') := by
  cases h with
  | ok hb h => exact hb ▸ hk _ _ h
  | error => exact .error

/-- What a column is computed to does not depend on what the engine remembers. -/
theorem derived_yields (h : start.Alike engine) :
    Yields start id (s.alone start row c) (s.derived engine row c) := by
  have hstart : start.Alike start := h.trans h.symm
  have hend : EndAlike start (s.derived start row c) (s.derived engine row c) := by
    unfold derived
    by_cases hkind : c.kind = .formula
    · rw [if_pos hkind, if_pos hkind]
      exact formula_endAlike hkind (fun d hd => ⟨d, hd.mem, hd.2.1, rfl⟩) .refl hstart h
    · rw [if_neg hkind, if_neg hkind]
      exact .ok hstart h
  unfold alone
  generalize s.derived start row c = first at hend
  generalize s.derived engine row c = second at hend
  cases hend with
  | ok _ h => exact .ok rfl h
  | error => exact .error

/-- **Computing columns.** The outcome is made of the results of the columns alone. -/
theorem computeColumns_yields (h : start.Alike engine) :
    Yields start (Outcome.ofResults · (cs.countP s.leaves))
      (s.results start row (cs.filter s.computes)) (s.computeColumns engine row cs) := by
  induction cs generalizing row engine with
  | nil => exact .ok rfl h
  | cons c cs ih =>
      rw [computeColumns]
      by_cases hderived : c.kind.isDerived
      · rw [hderived]
        by_cases hskips : s.skips.skips c.kind
        · have hcomputes : ¬ s.computes c := by simp [computes, hskips]
          have hleaves : s.leaves c := by simp [leaves, hderived, hskips]
          rw [List.filter_cons_of_neg hcomputes, List.countP_cons_of_pos hleaves, hskips]
          -- the row and the engine stay, and the count of skipped columns grows
          have hrest : Yields start _ (s.results start row _) (s.computeColumns engine row cs) :=
            ih h
          generalize s.results start row (cs.filter s.computes) = results at hrest
          generalize s.computeColumns engine row cs = rest at hrest
          cases hrest with
          | @ok results _ _ hb h =>
              refine .ok ?_ h
              rw [Outcome.ofResults_succ, hb]
          | error => exact .error
        · have hcomputes : s.computes c := by simp [computes, hskips, hderived]
          have hleaves : ¬ s.leaves c := by simp [leaves, hskips]
          rw [List.filter_cons_of_pos hcomputes, List.countP_cons_of_neg hleaves, if_neg hskips,
            results]
          refine (derived_yields h).bind fun result engine h => ?_
          refine (ih h).bind fun results engine h => ?_
          exact .ok (Outcome.ofResults_cons ⟨c, result⟩ results _) h
      · have hcomputes : ¬ s.computes c := by simp [computes, hderived]
        have hleaves : ¬ s.leaves c := by simp [leaves, hderived]
        rw [List.filter_cons_of_neg hcomputes, List.countP_cons_of_neg hleaves]
        rw [Bool.not_eq_true] at hderived
        rw [hderived]
        exact ih h

/-- The results of the derived columns make the outcome for a row, whatever the engine remembers. -/
theorem apply_of_results (h : start.Alike engine) {results : List ColumnResult}
    (hresults : s.results start row (s.columns.filter s.computes) = .ok results) :
    ∃ engine', start.Alike engine' ∧
      s.compute engine row = .ok (.ofResults results (s.columns.countP s.leaves), engine') ∧
      s.apply engine row = .ok (.ofResults results (s.columns.countP s.leaves),
        row.overlaid (results.map ColumnResult.entry), engine') := by
  have hyields : Yields start _ _ (s.compute engine row) := computeColumns_yields h
  rw [hresults] at hyields
  generalize hcompute : s.compute engine row = computed at hyields
  cases hyields with
  | ok hb h =>
      subst hb
      refine ⟨_, h, rfl, apply_eq_ok.mpr ⟨hcompute, ?_⟩⟩
      rw [Row.store_eq_overlaid]
      rfl

/-- A column that is abandoned ends the computation of its row. -/
theorem apply_of_abandoned (h : start.Alike engine) {fault : Fault}
    (hresults : s.results start row (s.columns.filter s.computes) = .error fault) :
    s.compute engine row = .error fault ∧ s.apply engine row = .error fault := by
  have hyields : Yields start _ _ (s.compute engine row) := computeColumns_yields h
  rw [hresults] at hyields
  generalize hcompute : s.compute engine row = computed at hyields
  cases hyields with
  | error =>
      refine ⟨rfl, ?_⟩
      unfold apply
      rw [hcompute]
      rfl

/-! ## One column after another -/

/-- Each result is that of its column alone, on the row with the values of the results before it laid
over. -/
def OneByOne (s : Setting) (engine : Engine) (row : Row) (results : List ColumnResult) : Prop :=
  ∀ before r after, results = before ++ r :: after →
    s.alone engine (row.overlaid (before.map ColumnResult.entry)) r.column = .ok r.result

theorem OneByOne.cons {r : ColumnResult} {results : List ColumnResult}
    (hr : s.alone engine row r.column = .ok r.result)
    (h : s.OneByOne engine (row.overlaid [r.entry]) results) :
    s.OneByOne engine row (r :: results) := by
  rintro (_ | ⟨b, before⟩) r' after hsplit
  · cases hsplit
    rw [List.map_nil, Row.overlaid_nil]
    exact hr
  · cases hsplit
    rw [List.map_cons, Row.overlaid_cons]
    exact h before r' after rfl

/-- Every column has a result of its own. -/
theorem results_eq_ok {results : List ColumnResult} (h : s.results engine row cs = .ok results) :
    results.map ColumnResult.column = cs ∧ s.OneByOne engine row results := by
  induction cs generalizing row results with
  | nil =>
      cases h
      exact ⟨rfl, fun before r after hsplit => by simp at hsplit⟩
  | cons c cs ih =>
      cases hresult : s.alone engine row c with
      | error fault =>
          rw [results_cons_of_error hresult] at h
          cases h
      | ok result =>
          rw [results_cons hresult] at h
          obtain ⟨rest, hrest, rfl⟩ := map_eq_ok h
          obtain ⟨hcolumns, halone⟩ := ih hrest
          exact ⟨congrArg (c :: ·) hcolumns, halone.cons hresult⟩

/-- A computation is abandoned by a column after some that have results. -/
theorem results_eq_error {fault : Fault} (h : s.results engine row cs = .error fault) :
    ∃ before c after results, cs = before ++ c :: after ∧ s.results engine row before = .ok results ∧
      s.alone engine (row.overlaid (results.map ColumnResult.entry)) c = .error fault := by
  induction cs generalizing row with
  | nil => cases h
  | cons c cs ih =>
      cases hresult : s.alone engine row c with
      | error fault' =>
          rw [results_cons_of_error hresult] at h
          cases h
          refine ⟨[], c, cs, [], rfl, rfl, ?_⟩
          rw [List.map_nil, Row.overlaid_nil]
          exact hresult
      | ok result =>
          rw [results_cons hresult] at h
          cases hrest : s.results engine (row.overlaid [(ColumnResult.mk c result).entry]) cs with
          | ok rest =>
              rw [hrest] at h
              cases h
          | error fault' =>
              rw [hrest] at h
              cases h
              obtain ⟨before, c', after, results, rfl, hresults, hfault⟩ := ih hrest
              refine ⟨c :: before, c', after, ⟨c, result⟩ :: results, rfl, ?_, ?_⟩
              · rw [results_cons hresult, hresults]
                rfl
              · rw [List.map_cons, Row.overlaid_cons]
                exact hfault

end Setting

/-! ## One row -/

/-- The second row is the first one with values stored in it: they are the only change, and of
several values for one column the last one is there. -/
structure Row.Stores (row : Row) (values : List (String × Value)) (row' : Row) : Prop where
  id : row'.id = row.id
  cells : row'.cells = row.cells
  kept : ∀ id, id ∉ values.map Prod.fst → row'.computed[id]? = row.computed[id]?
  stored : ∀ before id v after, values = before ++ (id, v) :: after → id ∉ after.map Prod.fst →
    row'.computed[id]? = some v

theorem Row.stores_store (row : Row) (o : Outcome) : row.Stores o.values (row.store o) := by
  have hnone {values : List (String × Value)} {id : String} (h : id ∉ values.map Prod.fst) :
      values.reverse.lookup id = none := by
    rw [List.lookup_eq_none_iff]
    intro entry hentry
    rw [List.mem_reverse] at hentry
    simp only [bne_iff_ne, ne_eq]
    rintro rfl
    exact h (List.mem_map_of_mem hentry)
  obtain ⟨hid, hcells⟩ := row.store_frame o
  refine ⟨hid, hcells, ?_, ?_⟩
  · intro id h
    rw [getElem?_store, hnone h, Option.none_or]
  · intro before id v after hvalues h
    rw [getElem?_store, hvalues, List.reverse_append, List.reverse_cons, List.append_assoc,
      List.lookup_append, hnone h, Option.none_or, List.singleton_append, List.lookup_cons_self]
    rfl

/-- What an outcome says of the results of the columns that were computed, in their order. -/
structure Outcome.Reports (o : Outcome) (columns : List Column) (results : List ColumnResult) :
    Prop where
  values : o.values = results.map ColumnResult.entry
  errors : o.errors = results.filterMap ColumnResult.failure?
  formulas : o.statistics.formulas = results.countP (·.column.kind = .formula)
  rollups : o.statistics.rollups = results.countP (·.column.kind = .rollup)
  computed : o.statistics.formulas + o.statistics.rollups = o.values.length
  derived : o.statistics.formulas + o.statistics.rollups + o.statistics.skipped =
    columns.countP (·.kind.isDerived)
  failed : o.statistics.errors = o.errors.length

/-- Every derived column is computed or skipped. -/
theorem Setting.countP_computes_add_countP_leaves (s : Setting) (columns : List Column) :
    columns.countP s.computes + columns.countP s.leaves = columns.countP (·.kind.isDerived) := by
  induction columns with
  | nil => rfl
  | cons c columns ih =>
      rw [List.countP_cons, List.countP_cons, List.countP_cons, ← ih]
      cases hderived : c.kind.isDerived <;> cases hskips : s.skips.skips c.kind <;>
        simp [computes, leaves, hderived, hskips] <;> omega

theorem Setting.reports_ofResults (s : Setting) {columns : List Column} {results : List ColumnResult}
    (h : results.map ColumnResult.column = columns.filter s.computes) :
    (Outcome.ofResults results (columns.countP s.leaves)).Reports columns results := by
  have hrollups : results.countP (·.column.kind ≠ .formula) =
      results.countP (·.column.kind = .rollup) := by
    refine List.countP_congr fun r hr => ?_
    have hderived : r.column.kind.isDerived = true := by
      have hr : r.column ∈ columns.filter s.computes := h ▸ List.mem_map_of_mem hr
      exact (Bool.and_eq_true_iff.mp (List.mem_filter.mp hr).2).1
    generalize r.column.kind = kind at hderived ⊢
    cases kind <;> simp_all [ColumnKind.isDerived]
  have hlength : results.countP (·.column.kind = .formula) +
      results.countP (·.column.kind ≠ .formula) = results.length := by
    rw [List.length_eq_countP_add_countP (·.column.kind = .formula)]
    simp
  have hcomputed : results.length = columns.countP s.computes := by
    rw [List.countP_eq_length_filter, ← h, List.length_map]
  refine ⟨rfl, rfl, rfl, hrollups, ?_, ?_, rfl⟩
  · exact hlength.trans (List.length_map _).symm
  · show _ + _ + columns.countP s.leaves = _
    rw [← s.countP_computes_add_countP_leaves, ← hcomputed, ← hlength]
    rfl

/-- A table with a formula, a formula column without one, a rollup that is skipped, and a second
formula for the id of the first. -/
def patchwork : Setting where
  columns := [
    { id := "n", name := "Name", kind := .text, config := none },
    { id := "u", name := "Upper", kind := .formula,
      config := some (.formula "upper(prop(\"Name\"))") },
    { id := "x", name := "Empty", kind := .formula, config := none },
    { id := "k", name := "Count", kind := .rollup, config := none },
    { id := "u", name := "Loud", kind := .formula,
      config := some (.formula "prop(\"Upper\") + \"!\"") }]
  skips := { rollups := true }
  resolver := .none
  now := labels.now

end FormulaTable
