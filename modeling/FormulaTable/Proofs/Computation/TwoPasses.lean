import FormulaTable.Proofs.Computation.Results

/-!
# Rollups first, formulas second

A row can be computed in two passes, one that skips the formulas and one that skips the rollups. If
every rollup that a formula reads stands before the formula, the two passes leave the row that one
pass would have left: the formulas read the same values in both, as rollups do not read computed
values at all.
-/

namespace FormulaTable

open Calendar (Fault Instant)
open Formula (Engine)

/-- Every rollup that a formula reads stands before the formula. -/
def RollupsFirst (columns : List Column) : Prop :=
  ∀ before c after, columns = before ++ c :: after →
    ∀ d, Reads columns c d → d.kind = .rollup → d ∈ before

/-! ## Values in another order -/

namespace Row

variable {row : Row} {values others : List (String × Value)} {id : String} {v : Value}

theorem getElem?_overlaid_of_mem (hids : (values.map Prod.fst).Nodup) (h : (id, v) ∈ values) :
    (row.overlaid values).computed[id]? = some v := by
  have hdistinct : values.Pairwise fun a b => ¬ compare a.1 b.1 = .eq := by
    refine (List.pairwise_map.mp hids).imp ?_
    intro a b hne heq
    exact hne (Std.LawfulEqCmp.compare_eq_iff_eq.mp heq)
  exact Std.ExtTreeMap.getElem?_insertMany_list_of_mem Std.ReflCmp.compare_self hdistinct h

theorem getElem?_overlaid_of_notMem (h : id ∉ values.map Prod.fst) :
    (row.overlaid values).computed[id]? = row.computed[id]? := by
  rw [← (row.stores_store { values }).kept id h, store_eq_overlaid]

/-- The order of values for different columns does not matter. -/
theorem overlaid_perm (h : values.Perm others) (hids : (values.map Prod.fst).Nodup) :
    row.overlaid values = row.overlaid others := by
  have hcomputed : (row.overlaid values).computed = (row.overlaid others).computed := by
    apply Std.ExtTreeMap.ext_getElem?
    intro id
    by_cases hid : id ∈ values.map Prod.fst
    · obtain ⟨⟨_, v⟩, hmem, rfl⟩ := List.mem_map.mp hid
      rw [getElem?_overlaid_of_mem hids hmem,
        getElem?_overlaid_of_mem ((h.map _).nodup_iff.mp hids) (h.mem_iff.mp hmem)]
    · rw [getElem?_overlaid_of_notMem hid,
        getElem?_overlaid_of_notMem (mt (h.map _).mem_iff.mpr hid)]
  exact congrArg (fun computed => ({ row with computed } : Row)) hcomputed

end Row

/-- The counts of results that are taken in two parts add up. -/
theorem Outcome.counts_of_perm {results rollups formulas : List ColumnResult}
    (h : results.Perm (rollups ++ formulas)) (skipped skipped₁ skipped₂ : Nat) :
    let whole := (ofResults results skipped).statistics
    let first := (ofResults rollups skipped₁).statistics
    let second := (ofResults formulas skipped₂).statistics
    whole.formulas = first.formulas + second.formulas ∧
      whole.rollups = first.rollups + second.rollups ∧
      whole.errors = first.errors + second.errors := by
  refine ⟨(h.countP_eq _).trans List.countP_append, (h.countP_eq _).trans List.countP_append, ?_⟩
  have hfailures := (h.filterMap ColumnResult.failure?).length_eq
  rw [List.filterMap_append, List.length_append] at hfailures
  exact hfailures

/-! ## Columns of one kind -/

theorem kind_of_isDerived {kind : ColumnKind} (h : kind.isDerived) :
    kind = .formula ∨ kind = .rollup := by
  cases kind <;> simp_all [ColumnKind.isDerived]

namespace Setting

variable {s : Setting} {row row' : Row} {c : Column} {cs before after : List Column}
  {engine : Engine}

/-- The columns that are computed are those of some kinds. -/
theorem filter_computes (s : Setting) (columns : List Column) (p : ColumnKind → Bool)
    (h : ∀ kind : ColumnKind, (kind.isDerived && !s.skips.skips kind) = p kind) :
    columns.filter s.computes = columns.filter (p ·.kind) :=
  List.filter_congr fun c _ => h c.kind

/-- What is skipped does not matter to a column that is computed. -/
theorem results_withSkips (s : Setting) (skips : Skips) :
    { s with skips }.results engine row cs = s.results engine row cs := by
  induction cs generalizing row with
  | nil => rfl
  | cons c cs ih =>
      rw [results, results]
      simp only [ih]
      rfl

/-- The result of a rollup column. -/
def rollupResult (s : Setting) (row : Row) (c : Column) : ColumnResult := ⟨c, s.rollup row c⟩

theorem rollupResult_overlaid (hresolver : s.resolver.ReadsCells)
    (values : List (String × Value)) :
    s.rollupResult (row.overlaid values) = s.rollupResult row := by
  funext c
  have hrow : Row.Agree [] (row.overlaid values) row := ⟨rfl, rfl, nofun⟩
  rw [rollupResult, rollupResult, rollup_congr hresolver hrow]

theorem alone_of_rollup (hkind : c.kind = .rollup) :
    s.alone engine row c = .ok (s.rollup row c) := by
  unfold alone derived
  rw [if_neg (by rw [hkind]; decide)]
  rfl

/-- Rollups are computed from the row as it was. -/
theorem results_rollups (hresolver : s.resolver.ReadsCells) (hcs : ∀ c ∈ cs, c.kind = .rollup) :
    s.results engine row cs = .ok (cs.map (s.rollupResult row)) := by
  induction cs generalizing row with
  | nil => rfl
  | cons c cs ih =>
      obtain ⟨hc, hcs⟩ := List.forall_mem_cons.mp hcs
      rw [results, alone_of_rollup hc]
      show (s.results engine _ cs).bind _ = _
      rw [ih hcs, rollupResult_overlaid hresolver]
      rfl

/-- A formula has the same result on rows that agree on what it reads. -/
theorem alone_congr (hengine : engine.Faithful) (hresolver : s.resolver.ReadsCells)
    {known : List Column}
    (hreads : ∀ d, Reads s.columns c d → ∃ b ∈ known, b.kind.isDerived ∧ b.id = d.id)
    (hrow : Row.Agree known row row') : s.alone engine row c = s.alone engine row' c := by
  have hself : engine.Alike engine := ⟨rfl, rfl, hengine, hengine⟩
  exact (derived_endAlike hresolver hreads hrow hself hself).map_fst

/-! ## One pass against two -/

/-- No other derived column has the id of a derived column. -/
theorem ne_of_split {columns : List Column} (hids : DistinctIds columns)
    (hsplit : columns = before ++ c :: after) (hc : c.kind.isDerived) {b : Column} (hb : b ∈ before)
    (hderived : b.kind.isDerived) : b.id ≠ c.id := by
  have hfilter : (c :: after).filter (·.kind.isDerived) = c :: after.filter (·.kind.isDerived) :=
    List.filter_cons_of_pos hc
  rw [DistinctIds, hsplit, List.filter_append, hfilter, List.map_append, List.map_cons,
    List.nodup_middle, List.nodup_cons] at hids
  intro hid
  exact hids.1 (hid ▸ List.mem_append_left _
    (List.mem_map_of_mem (List.mem_filter.mpr ⟨hb, hderived⟩)))

/-- Derived columns of different kinds have different ids. -/
theorem ne_of_kind {columns : List Column} (hids : DistinctIds columns) {b : Column}
    (hb : b ∈ columns) (hc : c ∈ columns) (hbderived : b.kind.isDerived)
    (hcderived : c.kind.isDerived) (hkind : b.kind ≠ c.kind) : b.id ≠ c.id := by
  intro hid
  exact hkind (congrArg Column.kind (hids.eq hb hc hbderived hcderived hid))

/-- The rollups of some columns have been computed ahead, the formulas not. -/
structure Ahead (s : Setting) (before after : List Column) (row row' : Row) : Prop where
  agree : Row.Agree (before ++ s.columns.filter (·.kind = .formula)) row row'
  rollups : ∀ c ∈ after, c.kind = .rollup → row'.computed[c.id]? = some (s.rollupResult row c).value

namespace Ahead

/-- One column more has been passed over. -/
theorem concat_subset (before : List Column) (c : Column) (others : List Column) :
    before ++ [c] ++ others ⊆ before ++ others ++ [c] := by
  intro b hb
  simp only [List.mem_append] at hb ⊢
  tauto

/-- Both rows take the result of a formula. -/
theorem formula (hids : DistinctIds s.columns) (hresolver : s.resolver.ReadsCells)
    (hsplit : s.columns = before ++ c :: after) (hkind : c.kind = .formula)
    (h : s.Ahead before (c :: after) row row') (result : Except ComputationError Value) :
    s.Ahead (before ++ [c]) after (row.overlaid [(ColumnResult.mk c result).entry])
      (row'.overlaid [(ColumnResult.mk c result).entry]) := by
  constructor
  · rw [ColumnResult.entry, Row.overlaid_singleton, Row.overlaid_singleton]
    exact (h.agree.setComputed c _).mono (concat_subset ..)
  · intro c' hc' hrollup
    have hmem : c ∈ s.columns ∧ c' ∈ s.columns := by simp [hsplit, hc']
    have hid : c'.id ≠ c.id := ne_of_kind hids hmem.2 hmem.1 (by rw [hrollup]; rfl)
      (by rw [hkind]; rfl) (by rw [hrollup, hkind]; decide)
    rw [Row.getElem?_overlaid_of_notMem (by simpa [ColumnResult.entry] using hid),
      h.rollups c' (List.mem_cons_of_mem _ hc') hrollup, rollupResult_overlaid hresolver]

/-- The first row takes the result of a rollup, which the second one has. -/
theorem rollup (hids : DistinctIds s.columns) (hresolver : s.resolver.ReadsCells)
    (hsplit : s.columns = before ++ c :: after) (hkind : c.kind = .rollup)
    (h : s.Ahead before (c :: after) row row') :
    s.Ahead (before ++ [c]) after (row.overlaid [(s.rollupResult row c).entry]) row' := by
  have hc : c ∈ s.columns := by simp [hsplit]
  have hderived : c.kind.isDerived := by rw [hkind]; rfl
  constructor
  · refine ⟨h.agree.id, h.agree.cells, ?_⟩
    intro b hb hbderived
    rcases List.mem_append.mp (concat_subset _ _ _ hb) with hb | hb
    · have hid : b.id ≠ c.id := by
        rcases List.mem_append.mp hb with hb | hb
        · exact ne_of_split hids hsplit hderived hb hbderived
        · obtain ⟨hmem, hformula⟩ := List.mem_filter.mp hb
          refine ne_of_kind hids hmem hc hbderived hderived ?_
          rw [of_decide_eq_true hformula, hkind]
          decide
      rw [Row.getElem?_overlaid_of_notMem (by simpa [ColumnResult.entry, rollupResult] using hid)]
      exact h.agree.computed b hb hbderived
    · rw [List.mem_singleton.mp hb, h.rollups c List.mem_cons_self hkind]
      exact Row.getElem?_overlaid_of_mem (List.nodup_singleton _) List.mem_cons_self
  · intro c' hc' hrollup
    rw [h.rollups c' (List.mem_cons_of_mem _ hc') hrollup, rollupResult_overlaid hresolver]

theorem skip (hderived : ¬ c.kind.isDerived) (h : s.Ahead before (c :: after) row row') :
    s.Ahead (before ++ [c]) after row row' :=
  ⟨(h.agree.skip hderived).mono (concat_subset ..),
    fun c' hc' => h.rollups c' (List.mem_cons_of_mem _ hc')⟩

end Ahead

/-- The first pass has the results of some rollups and those of the second pass, in any order, or
both are abandoned for the same reason. -/
inductive Splits (rollups : List ColumnResult) :
    Except Fault (List ColumnResult) → Except Fault (List ColumnResult) → Prop where
  | ok {results formulas : List ColumnResult} (h : results.Perm (rollups ++ formulas)) :
      Splits rollups (.ok results) (.ok formulas)
  | error {fault : Fault} : Splits rollups (.error fault) (.error fault)

namespace Splits

variable {rollups : List ColumnResult} {m m' : Except Fault (List ColumnResult)}

/-- A formula comes first in both passes. -/
theorem formula (h : Splits rollups m m') (r : ColumnResult) :
    Splits rollups (m.map (r :: ·)) (m'.map (r :: ·)) := by
  cases h with
  | ok h => exact .ok ((h.cons r).trans List.perm_middle.symm)
  | error => exact .error

/-- A rollup comes first in the first pass. -/
theorem rollup (h : Splits rollups m m') (r : ColumnResult) :
    Splits (r :: rollups) (m.map (r :: ·)) m' := by
  cases h with
  | ok h => exact .ok (h.cons r)
  | error => exact .error

end Splits

/-- The formulas of a row whose rollups are computed ahead have the results that they have in turn
with the rollups. -/
theorem results_splits (hengine : engine.Faithful) (hresolver : s.resolver.ReadsCells)
    (hids : DistinctIds s.columns) (hfirst : RollupsFirst s.columns)
    (hsplit : s.columns = before ++ after) (hahead : s.Ahead before after row row') :
    Splits ((after.filter (·.kind = .rollup)).map (s.rollupResult row))
      (s.results engine row (after.filter (·.kind.isDerived)))
      (s.results engine row' (after.filter (·.kind = .formula))) := by
  induction after generalizing before row row' with
  | nil => exact .ok .nil
  | cons c after ih =>
      have hsplit' : s.columns = (before ++ [c]) ++ after := by
        rw [hsplit, List.append_assoc, List.singleton_append]
      by_cases hformula : c.kind = .formula
      · -- both passes compute the formula, and both go on with its result
        have hreads : ∀ d, Reads s.columns c d →
            ∃ b ∈ before ++ s.columns.filter (·.kind = .formula),
              b.kind.isDerived ∧ b.id = d.id := by
          intro d hd
          refine ⟨d, ?_, hd.2.1, rfl⟩
          rcases kind_of_isDerived hd.2.1 with hkind | hkind
          · exact List.mem_append_right _ (List.mem_filter.mpr ⟨hd.mem, decide_eq_true hkind⟩)
          · exact List.mem_append_left _ (hfirst before c after hsplit d hd hkind)
        have halone := alone_congr hengine hresolver hreads hahead.agree
        simp only [List.filter_cons, hformula, ColumnKind.isDerived, decide_true, if_true,
          reduceCtorEq, decide_false, Bool.false_eq_true, if_false]
        cases hresult : s.alone engine row c with
        | error fault =>
            rw [results_cons_of_error hresult, results_cons_of_error (halone ▸ hresult)]
            exact .error
        | ok result =>
            have hrest := ih hsplit' (.formula hids hresolver hsplit hformula hahead result)
            rw [rollupResult_overlaid hresolver] at hrest
            rw [results_cons hresult, results_cons (halone ▸ hresult)]
            exact hrest.formula ⟨c, result⟩
      · by_cases hrollup : c.kind = .rollup
        · -- the single pass comes to the result that the other one was given
          have hrest := ih hsplit' (.rollup hids hresolver hsplit hrollup hahead)
          rw [rollupResult_overlaid hresolver] at hrest
          simp only [List.filter_cons, hrollup, ColumnKind.isDerived, decide_true, if_true,
            reduceCtorEq, decide_false, Bool.false_eq_true, if_false]
          rw [results_cons (alone_of_rollup hrollup)]
          exact hrest.rollup (s.rollupResult row c)
        · have hderived : ¬ c.kind.isDerived := by
            intro h
            exact (kind_of_isDerived h).elim hformula hrollup
          simp only [List.filter_cons, hformula, hrollup, hderived, decide_false,
            Bool.false_eq_true, if_false]
          exact ih hsplit' (.skip hderived hahead)

/-- After the pass over the rollups they are computed ahead. -/
theorem ahead_rollups (hids : DistinctIds s.columns) :
    s.Ahead [] s.columns row (row.overlaid
      (((s.columns.filter (·.kind = .rollup)).map (s.rollupResult row)).map ColumnResult.entry)) := by
  have hkeys : (((s.columns.filter (·.kind = .rollup)).map (s.rollupResult row)).map
      ColumnResult.entry).map Prod.fst = (s.columns.filter (·.kind = .rollup)).map Column.id := by
    rw [List.map_map, List.map_map]
    rfl
  have hnodup : ((s.columns.filter (·.kind = .rollup)).map Column.id).Nodup := by
    refine hids.sublist (List.Sublist.map _ ?_)
    have hfilter : s.columns.filter (·.kind = .rollup) =
        (s.columns.filter (·.kind.isDerived)).filter (·.kind = .rollup) := by
      rw [List.filter_filter]
      refine List.filter_congr fun c _ => ?_
      cases c.kind <;> rfl
    rw [hfilter]
    exact List.filter_sublist
  constructor
  · refine ⟨rfl, rfl, ?_⟩
    intro b hb hbderived
    obtain ⟨hmem, hformula⟩ := List.mem_filter.mp hb
    rw [Row.getElem?_overlaid_of_notMem]
    rw [hkeys]
    intro hid
    obtain ⟨c, hc, hid⟩ := List.mem_map.mp hid
    obtain ⟨hc, hrollup⟩ := List.mem_filter.mp hc
    refine ne_of_kind hids hc hmem ?_ hbderived ?_ hid
    · rw [of_decide_eq_true hrollup]
      rfl
    · rw [of_decide_eq_true hrollup, of_decide_eq_true hformula]
      decide
  · intro c hc hrollup
    refine Row.getElem?_overlaid_of_mem (hkeys ▸ hnodup) ?_
    exact List.mem_map_of_mem
      (List.mem_map_of_mem (List.mem_filter.mpr ⟨hc, decide_eq_true hrollup⟩))

end Setting

/-- **Two passes make one.** Let the derived columns have different ids, and let the rollups that a
formula reads stand before it. Computing the rollups of a row and then its formulas leaves the row
that computing all at once does, with the same counts in all, or is abandoned for the same reason;
the pass over the rollups never is. -/
theorem two_passes_make_one (columns : List Column) (resolver : Resolver) (now : Instant)
    (engine : Engine) (row : Row) (hresolver : resolver.ReadsCells) (hids : DistinctIds columns)
    (hfirst : RollupsFirst columns) (hengine : engine.Reachable) :
    let full : Setting := { columns, skips := {}, resolver, now }
    let rollups : Setting := { columns, skips := { formulas := true }, resolver, now }
    let formulas : Setting := { columns, skips := { rollups := true }, resolver, now }
    ∃ o₁ row₁ engine₁, rollups.apply engine row = .ok (o₁, row₁, engine₁) ∧
      ((∃ o o₂ row' engine' engine₂, full.apply engine row = .ok (o, row', engine') ∧
        formulas.apply engine₁ row₁ = .ok (o₂, row', engine₂) ∧
        o.statistics.formulas = o₁.statistics.formulas + o₂.statistics.formulas ∧
        o.statistics.rollups = o₁.statistics.rollups + o₂.statistics.rollups ∧
        o.statistics.errors = o₁.statistics.errors + o₂.statistics.errors) ∨
      ∃ fault, full.apply engine row = .error fault ∧ formulas.apply engine₁ row₁ = .error fault) := by
  intro full rollups formulas
  have hself : engine.Alike engine := ⟨rfl, rfl, hengine.faithful, hengine.faithful⟩
  have hfull : columns.filter full.computes = columns.filter (·.kind.isDerived) :=
    full.filter_computes columns (·.isDerived) (by intro kind; cases kind <;> rfl)
  have hrollups : columns.filter rollups.computes = columns.filter (·.kind = .rollup) :=
    rollups.filter_computes columns (· = .rollup) (by intro kind; cases kind <;> rfl)
  have hformulas : columns.filter formulas.computes = columns.filter (·.kind = .formula) :=
    formulas.filter_computes columns (· = .formula) (by intro kind; cases kind <;> rfl)
  -- the first pass
  have hfirstResults : rollups.results engine row (rollups.columns.filter rollups.computes) =
      .ok ((columns.filter (·.kind = .rollup)).map (full.rollupResult row)) := by
    show rollups.results engine row (columns.filter rollups.computes) = _
    rw [hrollups]
    exact Setting.results_rollups hresolver fun c hc => of_decide_eq_true (List.mem_filter.mp hc).2
  obtain ⟨engine₁, hengine₁, -, happly₁⟩ := Setting.apply_of_results hself hfirstResults
  refine ⟨_, _, engine₁, happly₁, ?_⟩
  -- the second pass, and the single one
  have hahead : full.Ahead [] columns row (row.overlaid
      (((columns.filter (·.kind = .rollup)).map (full.rollupResult row)).map ColumnResult.entry)) :=
    Setting.ahead_rollups hids
  have hsplits := Setting.results_splits hengine.faithful hresolver hids hfirst
    (List.nil_append columns).symm hahead
  rw [← hfull, ← hformulas] at hsplits
  generalize hone : full.results engine row (columns.filter full.computes) = one at hsplits
  generalize htwo : full.results engine _ (columns.filter formulas.computes) = two at hsplits
  rw [← full.results_withSkips { rollups := true }] at htwo
  cases hsplits with
  | @ok results results₂ hperm =>
      obtain ⟨engine', -, -, happly⟩ := Setting.apply_of_results hself hone
      obtain ⟨engine₂, -, -, happly₂⟩ := Setting.apply_of_results hengine₁ htwo
      have hnodup : ((results.map ColumnResult.entry).map Prod.fst).Nodup := by
        have hcolumns := (Setting.results_eq_ok hone).1
        rw [hfull] at hcolumns
        rw [List.map_map]
        show (results.map (Column.id ∘ ColumnResult.column)).Nodup
        rw [← List.map_map, hcolumns]
        exact hids
      have hrow : row.overlaid (results.map ColumnResult.entry) =
          (row.overlaid (((columns.filter (·.kind = .rollup)).map (full.rollupResult row)).map
            ColumnResult.entry)).overlaid (results₂.map ColumnResult.entry) := by
        rw [← Row.overlaid_append, ← List.map_append]
        exact Row.overlaid_perm (hperm.map _) hnodup
      exact .inl ⟨_, _, _, engine', engine₂, hrow ▸ happly, happly₂,
        Outcome.counts_of_perm hperm ..⟩
  | error =>
      exact .inr ⟨_, (Setting.apply_of_abandoned hself hone).2,
        (Setting.apply_of_abandoned hengine₁ htwo).2⟩

/-- A table with a relation to its own rows, the number of the related rows, a formula that reads it,
and a rollup without a configuration. -/
def tally : Setting where
  columns := [
    { id := "l", name := "Lines", kind := .relation, config := some (.relation (some "t")) },
    { id := "k", name := "Count", kind := .rollup,
      config := some (.rollup { relation := "l", target := "l", aggregation := .count }) },
    { id := "f", name := "Next", kind := .formula, config := some (.formula "prop(\"Count\") + 1") },
    { id := "x", name := "Empty", kind := .rollup, config := none }]
  skips := {}
  resolver := (TableSet.empty.insert {
    id := "t"
    columns := [{ id := "l", name := "Lines", kind := .relation, config := none }]
    rows := [Row.empty "a", Row.empty "b"] }).resolve
  now := labels.now

/-- Two passes replace a stale count and find the next number, as a single one does. -/
theorem tally_takes_two_passes :
    let row := ((Row.empty "r").setCell "l" (.options ["a", "b"])).setComputed "k" (.number 7)
    tally.resolver.ReadsCells ∧ DistinctIds tally.columns ∧ RollupsFirst tally.columns ∧
      (Engine.new {}).Reachable ∧ ∃ o₁ o₂ o row₁ row' engine₁ engine₂ engine',
        { tally with skips := { formulas := true } }.apply (Engine.new {}) row =
          .ok (o₁, row₁, engine₁) ∧
        { tally with skips := { rollups := true } }.apply engine₁ row₁ = .ok (o₂, row', engine₂) ∧
        tally.apply (Engine.new {}) row = .ok (o, row', engine') ∧
        o.values = [("k", .number 2), ("f", .number 3), ("x", .null)] ∧
        o₁.statistics.errors + o₂.statistics.errors = 1 := by
  intro row
  have hresolver : tally.resolver.ReadsCells := TableSet.resolve_readsCells _
  have hids : DistinctIds tally.columns := by
    unfold DistinctIds
    decide
  have hcount : ∀ c d, c = tally.columns[2] → Reads tally.columns c d → d = tally.columns[1] := by
    rintro c d rfl hreads
    obtain ⟨name, hname, hd⟩ := hreads.exists_name rfl (by decide +kernel : _ = some ["Count"])
    have hcolumn : Formula.column? tally.columns "Count" = tally.columns[1]? := by decide +kernel
    rw [List.mem_singleton.mp hname, hcolumn] at hd
    exact (Option.some.inj hd).symm
  have hfirst : RollupsFirst tally.columns := by
    intro before c after hsplit d hreads _
    rcases before with _ | ⟨b₀, _ | ⟨b₁, _ | ⟨b₂, _ | ⟨b₃, before⟩⟩⟩⟩
    · cases hsplit
      cases hreads.1
    · cases hsplit
      cases hreads.1
    · cases hsplit
      rw [hcount _ d rfl hreads]
      exact List.mem_of_getElem? (i := 1) rfl
    · cases hsplit
      cases hreads.1
    · have hlength := congrArg List.length hsplit
      simp only [tally, List.length_append, List.length_cons, List.length_nil] at hlength
      omega
  have hengine : (Engine.new {}).Reachable := ⟨{}, [], rfl⟩
  have houtcome : (tally.apply (Engine.new {}) row).toOption.map
      (fun result => (result.1.values, result.1.statistics.errors)) =
        some ([("k", .number 2), ("f", .number 3), ("x", .null)], 1) := by decide +kernel
  rcases two_passes_make_one tally.columns tally.resolver tally.now (Engine.new {}) row hresolver hids
    hfirst hengine with
    ⟨o₁, row₁, engine₁, h₁, ⟨o, o₂, row', engine', engine₂, h, h₂, -, -, herrors⟩ | ⟨fault, h, -⟩⟩
  · have h : tally.apply (Engine.new {}) row = .ok (o, row', engine') := h
    rw [h] at houtcome
    obtain ⟨hvalues, hcounted⟩ := Prod.mk.inj (Option.some.inj houtcome)
    exact ⟨hresolver, hids, hfirst, hengine, o₁, o₂, o, row₁, row', engine₁, engine₂, engine', h₁,
      h₂, h, hvalues, herrors ▸ hcounted⟩
  · have h : tally.apply (Engine.new {}) row = .error fault := h
    rw [h] at houtcome
    cases houtcome

end FormulaTable
