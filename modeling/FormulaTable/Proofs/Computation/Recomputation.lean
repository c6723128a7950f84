import FormulaTable.Computation.Setting
import FormulaTable.Proofs.Formula.Dependence
import FormulaTable.Proofs.Formula.EngineRun
import FormulaTable.Proofs.Result
import FormulaTable.Relation.Tables

/-!
# Computing a row again

Where every formula reads derived columns before it only, the outcome for a row depends on its id
and its cells, and what the row held for its derived columns is not read: two rows that agree on what
has been computed so far agree on the next derived column as well. So a row that has been computed is
left as it is when it is computed again.
-/

namespace FormulaTable

open Calendar (Fault Instant)
open Formula (Engine SameValues)

/-! ## Schemas and resolvers -/

/-- The rows that a relation leads to depend on the id and the cells of its row. -/
def Resolver.ReadsCells (resolver : Resolver) : Prop :=
  ∀ ⦃row row' : Row⦄ (relation : Column), row.id = row'.id → row.cells = row'.cells →
    resolver row relation = resolver row' relation

/-- Every derived column that a formula reads has the id of a derived column before the formula. -/
def DependencyOrdered (columns : List Column) : Prop :=
  ∀ before c after, columns = before ++ c :: after → c.kind = .formula →
    ∀ text e, c.formula? = some text → Formula.parse text = .ok e →
      ∀ name ∈ e.properties, ∀ d, Formula.column? columns name = some d → d.kind.isDerived →
        ∃ b ∈ before, b.kind.isDerived ∧ b.id = d.id

/-- The formula of the column `c` has a property that names the derived column `d`. -/
def Reads (columns : List Column) (c d : Column) : Prop :=
  c.kind = .formula ∧ d.kind.isDerived ∧ ∃ text e, c.formula? = some text ∧
    Formula.parse text = .ok e ∧ ∃ name ∈ e.properties, Formula.column? columns name = some d

theorem DependencyOrdered.reads {columns before after : List Column} {c d : Column}
    (h : DependencyOrdered columns) (hsplit : columns = before ++ c :: after)
    (hreads : Reads columns c d) : ∃ b ∈ before, b.kind.isDerived ∧ b.id = d.id := by
  obtain ⟨hkind, hderived, text, e, htext, he, name, hname, hd⟩ := hreads
  exact h before c after hsplit hkind text e htext he name hname d hd hderived

/-- Tables find related rows by a cell of the row. -/
theorem TableSet.resolve_readsCells (s : TableSet) : Resolver.ReadsCells s.resolve := by
  intro row row' relation _ hcells
  unfold resolve Row.cell
  rw [hcells]

/-! ## Rows that agree -/

/-- The rows have the same id, the same cells, and the same computed values for the derived columns
among `columns`. -/
structure Row.Agree (columns : List Column) (row row' : Row) : Prop where
  id : row.id = row'.id
  cells : row.cells = row'.cells
  computed : ∀ c ∈ columns, c.kind.isDerived → row.computed[c.id]? = row'.computed[c.id]?

namespace Row.Agree

variable {columns : List Column} {row row' : Row}

/-- A column that is not derived, or that has been computed, has the same value in both rows. -/
theorem value (h : Agree columns row row') (c : Column)
    (hc : c.kind.isDerived → ∃ b ∈ columns, b.kind.isDerived ∧ b.id = c.id) :
    row.value c = row'.value c := by
  unfold Row.value Row.cell
  rw [h.cells]
  by_cases hd : c.kind.isDerived
  · obtain ⟨b, hb, hderived, hid⟩ := hc hd
    rw [if_pos hd, if_pos hd, ← hid, h.computed b hb hderived]
  · rw [if_neg hd, if_neg hd]

/-- A column more has been computed. -/
theorem setComputed (h : Agree columns row row') (c : Column) (v : Value) :
    Agree (columns ++ [c]) (row.setComputed c.id v) (row'.setComputed c.id v) := by
  refine ⟨h.id, h.cells, ?_⟩
  intro b hb hderived
  rw [Row.setComputed, Row.setComputed, Std.ExtTreeMap.getElem?_insert,
    Std.ExtTreeMap.getElem?_insert]
  rcases List.mem_append.mp hb with hb | hb
  · rw [h.computed b hb hderived]
  · rw [List.mem_singleton.mp hb, if_pos Std.ReflCmp.compare_self, if_pos Std.ReflCmp.compare_self]

/-- A column that is not derived is passed over. -/
theorem skip (h : Agree columns row row') {c : Column} (hc : ¬ c.kind.isDerived) :
    Agree (columns ++ [c]) row row' := by
  refine ⟨h.id, h.cells, ?_⟩
  intro b hb hderived
  rcases List.mem_append.mp hb with hb | hb
  · exact h.computed b hb hderived
  · rw [List.mem_singleton.mp hb] at hderived
    exact absurd hderived hc

end Row.Agree

/-! ## Computations that end alike -/

/-- Both computations end with the same result and with engines like the one at the start, or are
abandoned for the same reason. -/
inductive EndAlike {α : Type} (start : Engine) :
    Except Fault (α × Engine) → Except Fault (α × Engine) → Prop where
  | ok {a : α} {engine engine' : Engine} (h : start.Alike engine) (h' : start.Alike engine') :
      EndAlike start (.ok (a, engine)) (.ok (a, engine'))
  | error {fault : Fault} : EndAlike start (.error fault) (.error fault)

namespace EndAlike

variable {α β : Type} {start : Engine} {m m' : Except Fault (α × Engine)}

/-- What follows computations that end alike has only to end alike from there. -/
theorem bind {f f' : α × Engine → Except Fault (β × Engine)} (h : EndAlike start m m')
    (hf : ∀ (a : α) (engine engine' : Engine), start.Alike engine → start.Alike engine' →
      EndAlike start (f (a, engine)) (f' (a, engine'))) :
    EndAlike start (m >>= f) (m' >>= f') := by
  cases h with
  | ok h h' => exact hf _ _ _ h h'
  | error => exact .error

/-- The results are the same. -/
theorem map_fst (h : EndAlike start m m') : m.map Prod.fst = m'.map Prod.fst := by
  cases h <;> rfl

end EndAlike

/-! ## One column -/

namespace Setting

variable {s : Setting} {known before after : List Column} {row row' : Row}
  {start engine engine' : Engine}

/-- Rollups read the id and the cells of the row. -/
theorem rollup_congr (hresolver : s.resolver.ReadsCells) (h : Row.Agree known row row')
    (c : Column) : s.rollup row c = s.rollup row' c := by
  unfold rollup
  simp only [hresolver _ h.id h.cells]

/-- The value of a formula column is the value of its formula. -/
theorem formula_eq (engine : Engine) (row : Row) {c : Column} {text : String}
    (htext : c.formula? = some text) : s.formula engine row c =
      match (engine.evaluate text row s.columns s.now).1 with
      | .ok v => .ok (.ok v, (engine.evaluate text row s.columns s.now).2)
      | .error (.error e) => .ok (.error (.formula e), (engine.evaluate text row s.columns s.now).2)
      | .error (.abandoned fault) => .error fault := by
  unfold formula
  rw [htext]
  dsimp only
  split <;> rename_i h <;> rw [h]

/-- A formula has the same result for rows that agree on the derived columns that it reads. -/
theorem formula_endAlike {c : Column} (hkind : c.kind = .formula)
    (hreads : ∀ d, Reads s.columns c d → ∃ b ∈ known, b.kind.isDerived ∧ b.id = d.id)
    (hrow : Row.Agree known row row') (h : start.Alike engine) (h' : start.Alike engine') :
    EndAlike start (s.formula engine row c) (s.formula engine' row' c) := by
  cases htext : c.formula? with
  | none =>
      rw [formula, formula, htext]
      exact .ok h h'
  | some text =>
      have hvalues : ∀ e, Formula.parse text = .ok e →
          SameValues s.columns e.properties row row' := by
        intro e he name hname d hd
        apply hrow.value d
        intro hderived
        exact hreads d ⟨hkind, hderived, text, e, htext, he, name, hname, hd⟩
      have hend : start.Alike (engine.evaluate text row s.columns s.now).2 := by
        rw [Engine.evaluate_eq]
        exact h.parse_right text
      have hend' : start.Alike (engine'.evaluate text row' s.columns s.now).2 := by
        rw [Engine.evaluate_eq]
        exact h'.parse_right text
      rw [formula_eq engine row htext, formula_eq engine' row' htext,
        (h.symm.trans h').evaluate_congr hvalues s.now]
      split
      · exact .ok hend hend'
      · exact .ok hend hend'
      · exact .error

/-- A derived column has the same result for rows that agree on the derived columns that it reads. -/
theorem derived_endAlike {c : Column} (hresolver : s.resolver.ReadsCells)
    (hreads : ∀ d, Reads s.columns c d → ∃ b ∈ known, b.kind.isDerived ∧ b.id = d.id)
    (hrow : Row.Agree known row row') (h : start.Alike engine) (h' : start.Alike engine') :
    EndAlike start (s.derived engine row c) (s.derived engine' row' c) := by
  unfold derived
  by_cases hkind : c.kind = .formula
  · rw [if_pos hkind, if_pos hkind]
    exact formula_endAlike hkind hreads hrow h h'
  · rw [if_neg hkind, if_neg hkind, rollup_congr hresolver hrow c]
    exact .ok h h'

/-! ## One row -/

/-- The columns after those computed so far have the same outcome for rows that agree on these and on
some known ones, if no other derived columns are read. -/
theorem computeColumns_endAlike (hskips : ∀ kind, s.skips.skips kind = false)
    (hresolver : s.resolver.ReadsCells)
    (hreads : ∀ before c after, s.columns = before ++ c :: after → ∀ d, Reads s.columns c d →
      ∃ b ∈ known ++ before, b.kind.isDerived ∧ b.id = d.id)
    (hsplit : s.columns = before ++ after) (hrow : Row.Agree (known ++ before) row row')
    (h : start.Alike engine) (h' : start.Alike engine') :
    EndAlike start (s.computeColumns engine row after) (s.computeColumns engine' row' after) := by
  -- the invariant is that the rows agree on the known columns and on the columns before
  induction after generalizing before row row' engine engine' with
  | nil => exact .ok h h'
  | cons c after ih =>
      have hsplit' : s.columns = (before ++ [c]) ++ after := by
        rw [hsplit, List.append_assoc, List.singleton_append]
      rw [computeColumns, computeColumns]
      by_cases hderived : c.kind.isDerived
      · rw [hderived, hskips]
        refine (derived_endAlike hresolver (hreads before c after hsplit) hrow h h').bind ?_
        intro result engine engine' h h'
        -- both rows go on with this result for the column
        have hnext := hrow.setComputed c (result.toOption.getD .null)
        rw [List.append_assoc] at hnext
        refine (ih hsplit' hnext h h').bind ?_
        intro outcome engine engine' h h'
        exact .ok h h'
      · have hskip := hrow.skip hderived
        rw [List.append_assoc] at hskip
        rw [Bool.not_eq_true] at hderived
        rw [hderived]
        exact ih hsplit' hskip h h'

/-- The outcome for a row depends on its id and its cells. -/
theorem compute_endAlike (hskips : ∀ kind, s.skips.skips kind = false)
    (hresolver : s.resolver.ReadsCells) (hcolumns : DependencyOrdered s.columns)
    (hid : row.id = row'.id) (hcells : row.cells = row'.cells) (h : start.Alike engine)
    (h' : start.Alike engine') :
    EndAlike start (s.compute engine row) (s.compute engine' row') := by
  have hrow : Row.Agree ([] ++ []) row row' := ⟨hid, hcells, nofun⟩
  refine computeColumns_endAlike hskips hresolver ?_ (List.nil_append _).symm hrow h h'
  intro before c after hsplit d hreads
  exact hcolumns.reads hsplit hreads

end Setting

/-! ## The engine of a computation -/

namespace Setting

variable {s : Setting} {row : Row} {c : Column} {engine engine' : Engine}

theorem formula_reachable (hengine : engine.Reachable)
    {result : Except ComputationError Value} (h : s.formula engine row c = .ok (result, engine')) :
    engine'.Reachable := by
  cases htext : c.formula? with
  | none =>
      rw [formula, htext] at h
      cases h
      exact hengine
  | some text =>
      have hparse : (engine.evaluate text row s.columns s.now).2.Reachable := by
        rw [Engine.evaluate_eq]
        exact hengine.step (.parse text)
      rw [formula_eq engine row htext] at h
      split at h
      · cases h
        exact hparse
      · cases h
        exact hparse
      · cases h

theorem derived_reachable (hengine : engine.Reachable)
    {result : Except ComputationError Value} (h : s.derived engine row c = .ok (result, engine')) :
    engine'.Reachable := by
  unfold derived at h
  by_cases hkind : c.kind = .formula
  · rw [if_pos hkind] at h
    exact formula_reachable hengine h
  · rw [if_neg hkind] at h
    cases h
    exact hengine

/-- What computing some columns leaves of an engine, operations could have left of it. -/
theorem computeColumns_reachable (hengine : engine.Reachable) {cs : List Column} {o : Outcome}
    (h : s.computeColumns engine row cs = .ok (o, engine')) : engine'.Reachable := by
  induction cs generalizing engine row o with
  | nil =>
      cases h
      exact hengine
  | cons c cs ih =>
      rw [computeColumns] at h
      split at h
      · exact ih hengine h
      · split at h
        · obtain ⟨⟨rest, engine₁⟩, hrest, h⟩ := bind_eq_ok h
          cases h
          exact ih hengine hrest
        · obtain ⟨⟨result, engine₁⟩, hresult, h⟩ := bind_eq_ok h
          obtain ⟨⟨rest, engine₂⟩, hrest, h⟩ := bind_eq_ok h
          cases h
          exact ih (derived_reachable hengine hresult) hrest

theorem compute_reachable (hengine : engine.Reachable) {o : Outcome}
    (h : s.compute engine row = .ok (o, engine')) : engine'.Reachable :=
  computeColumns_reachable hengine h

end Setting

/-! ## Storing an outcome -/

namespace Row

/-- An outcome is stored in the computed values only. -/
theorem store_frame (row : Row) (o : Outcome) :
    (row.store o).id = row.id ∧ (row.store o).cells = row.cells := by
  unfold store
  induction o.values generalizing row with
  | nil => exact ⟨rfl, rfl⟩
  | cons entry values ih => exact ih (row.setComputed entry.1 entry.2)

/-- Of the values of an outcome for a column, the last one is stored. -/
theorem getElem?_store (row : Row) (o : Outcome) (id : String) :
    (row.store o).computed[id]? = (o.values.reverse.lookup id).or row.computed[id]? := by
  unfold store
  induction o.values generalizing row with
  | nil => rfl
  | cons entry values ih =>
      obtain ⟨key, v⟩ := entry
      rw [List.foldl_cons, ih, List.reverse_cons, List.lookup_append, Option.or_assoc]
      congr 1
      show (row.computed.insert key v)[id]? = _
      rw [Std.ExtTreeMap.getElem?_insert, List.lookup_cons, List.lookup_nil]
      by_cases h : id = key
      · rw [h, if_pos Std.ReflCmp.compare_self, beq_self_eq_true, Option.some_or]
      · have hcompare : compare key id ≠ .eq := by
          intro heq
          exact h (Std.LawfulEqCmp.compare_eq_iff_eq.mp heq).symm
        rw [if_neg hcompare, beq_false_of_ne h, Option.none_or]

/-- An outcome that has been stored is there already. -/
theorem store_store (row : Row) (o : Outcome) : (row.store o).store o = row.store o := by
  obtain ⟨hid, hcells⟩ := (row.store o).store_frame o
  have hcomputed : ((row.store o).store o).computed = (row.store o).computed := by
    apply Std.ExtTreeMap.ext_getElem?
    intro id
    rw [getElem?_store, getElem?_store, ← Option.or_assoc, Option.or_self]
  generalize (row.store o).store o = row' at hid hcells hcomputed
  generalize row.store o = row at hid hcells hcomputed
  obtain ⟨id, cells, computed⟩ := row
  obtain ⟨id', cells', computed'⟩ := row'
  obtain rfl := hid
  obtain rfl := hcells
  obtain rfl := hcomputed
  rfl

end Row

/-- A row is computed, and the outcome is stored in it. -/
theorem Setting.apply_eq_ok {s : Setting} {engine engine' : Engine} {row row' : Row} {o : Outcome} :
    s.apply engine row = .ok (o, row', engine') ↔
      s.compute engine row = .ok (o, engine') ∧ row' = row.store o := by
  unfold apply
  constructor
  · intro h
    cases hcompute : s.compute engine row with
    | error fault =>
        rw [hcompute] at h
        cases h
    | ok result =>
        rw [hcompute] at h
        cases h
        exact ⟨rfl, rfl⟩
  · rintro ⟨hcompute, rfl⟩
    rw [hcompute]
    rfl

/-- **Stale values do not leak.** Where formulas read derived columns before them only, the outcome
for a row does not depend on what the row held for its derived columns, and a row that has been
computed is left as it is when it is computed again. -/
theorem compute_ignores_computed (columns : List Column) (resolver : Resolver) (now : Instant)
    (engine : Engine) (hresolver : resolver.ReadsCells) (hcolumns : DependencyOrdered columns)
    (hengine : engine.Reachable) :
    let s : Setting := { columns, skips := {}, resolver, now }
    (∀ row row' : Row, row.id = row'.id → row.cells = row'.cells →
      (s.compute engine row).map Prod.fst = (s.compute engine row').map Prod.fst) ∧
    ∀ row outcome row' engine', s.apply engine row = .ok (outcome, row', engine') →
      ∃ engine'', s.apply engine' row' = .ok (outcome, row', engine'') := by
  intro s
  have hskips : ∀ kind, s.skips.skips kind = false := by
    intro kind
    unfold Skips.skips
    split <;> rfl
  have hself : engine.Alike engine := ⟨rfl, rfl, hengine.faithful, hengine.faithful⟩
  refine ⟨?_, ?_⟩
  · intro row row' hid hcells
    exact (s.compute_endAlike hskips hresolver hcolumns hid hcells hself hself).map_fst
  · intro row outcome row' engine' h
    obtain ⟨hcompute, rfl⟩ := Setting.apply_eq_ok.mp h
    obtain ⟨hid, hcells⟩ := row.store_frame outcome
    -- the engine that the first pass leaves is like the one before it
    have hstart : engine.Alike engine' := by
      have hend : EndAlike engine (s.compute engine row) (s.compute engine row) :=
        s.compute_endAlike hskips hresolver hcolumns rfl rfl hself hself
      rw [hcompute] at hend
      cases hend with
      | ok h => exact h
    have hagain := s.compute_endAlike hskips hresolver hcolumns hid.symm hcells.symm hself hstart
    rw [hcompute] at hagain
    generalize hsecond : s.compute engine' (row.store outcome) = second at hagain
    cases hagain with
    | @ok _ _ engine'' =>
        refine ⟨engine'', Setting.apply_eq_ok.mpr ⟨hsecond, ?_⟩⟩
        rw [row.store_store]

/-- A table with a formula that reads a name and a formula that reads the first one. -/
def labels : Setting where
  columns := [
    { id := "n", name := "Name", kind := .text, config := none },
    { id := "u", name := "Upper", kind := .formula,
      config := some (.formula "upper(prop(\"Name\"))") },
    { id := "l", name := "Label", kind := .formula, config := some (.formula "prop(\"Upper\")") }]
  skips := {}
  resolver := TableSet.empty.resolve
  now := ⟨0, 0, 0, by decide, by decide, by decide, by decide⟩

/-- The label of a row is the same, whether or not the row holds a stale name in capital letters. -/
theorem compute_ignores_stale_name :
    labels.resolver.ReadsCells ∧ DependencyOrdered labels.columns ∧ (Engine.new {}).Reachable ∧
      (labels.compute (Engine.new {}) (Row.empty "r")).map Prod.fst =
        (labels.compute (Engine.new {}) ((Row.empty "r").setComputed "u" (.text "STALE"))).map
          Prod.fst := by
  have hproperties {text : String} {names : List String} {e : Formula.Expr}
      (h : (Formula.parse text).toOption.map Formula.Expr.properties = some names)
      (he : Formula.parse text = .ok e) : e.properties = names := by
    rw [he] at h
    exact Option.some.inj h
  have hcolumns : DependencyOrdered labels.columns := by
    intro before c after hsplit hkind text e htext he name hname d hd hderived
    rcases before with _ | ⟨b₀, _ | ⟨b₁, _ | ⟨b₂, before⟩⟩⟩
    · cases hsplit
      cases hkind
    · cases hsplit
      cases htext
      rw [hproperties (e := e) (by decide +kernel : _ = some ["Name"]) he,
        List.mem_singleton] at hname
      -- the name is not derived
      have hcolumn : Formula.column? labels.columns "Name" = labels.columns[0]? := by decide +kernel
      rw [hname, hcolumn] at hd
      cases hd
      cases hderived
    · cases hsplit
      cases htext
      rw [hproperties (e := e) (by decide +kernel : _ = some ["Upper"]) he,
        List.mem_singleton] at hname
      have hcolumn : Formula.column? labels.columns "Upper" = labels.columns[1]? := by
        decide +kernel
      rw [hname, hcolumn] at hd
      cases hd
      exact ⟨_, List.mem_of_getElem? (i := 1) rfl, rfl, rfl⟩
    · have hlength := congrArg List.length hsplit
      simp only [labels, List.length_append, List.length_cons, List.length_nil] at hlength
      omega
  have hresolver : labels.resolver.ReadsCells := TableSet.empty.resolve_readsCells
  have hengine : (Engine.new {}).Reachable := ⟨{}, [], rfl⟩
  exact ⟨hresolver, hcolumns, hengine,
    (compute_ignores_computed _ _ _ _ hresolver hcolumns hengine).1 _ _ rfl rfl⟩

end FormulaTable
