import FormulaTable.Proofs.Formula.Dependence
import Mathlib.Tactic.ByContra

/-!
# What the reported names tell

A tree reports the names of its properties, one for all names that agree in small letters. They tell
what its value depends on as far as names that agree in small letters name the same column. A name of
a column is looked up so, an id is not: of two ids that differ in their letters' case only, the tree
reports one and reads both columns.
-/

namespace FormulaTable.Formula

/-! ## Reported names -/

namespace Expr

variable {key : String → String} {met names : List String} {name : String}

theorem firstByKey_subset : firstByKey key met names ⊆ names := by
  induction names generalizing met with
  | nil => exact List.Subset.refl _
  | cons n names ih =>
      rw [firstByKey]
      split
      · exact List.subset_cons_of_subset n ih
      · exact List.cons_subset_cons n ih

/-- Every name has the key of a name met before or of one that is kept. -/
theorem exists_of_mem (h : name ∈ names) :
    key name ∈ met ∨ ∃ n ∈ firstByKey key met names, key n = key name := by
  induction names generalizing met with
  | nil => cases h
  | cons n names ih =>
      rw [firstByKey]
      split
      · rename_i hmet
        rcases List.mem_cons.mp h with rfl | h
        · exact .inl hmet
        · exact ih h
      · rcases List.mem_cons.mp h with rfl | h
        · exact .inr ⟨name, List.mem_cons_self, rfl⟩
        · rcases ih h with hmet | ⟨k, hk, hkey⟩
          · -- the key was met here, in the name that is kept
            rcases List.mem_cons.mp hmet with hkey | hmet
            · exact .inr ⟨n, List.mem_cons_self, hkey.symm⟩
            · exact .inl hmet
          · exact .inr ⟨k, List.mem_cons_of_mem n hk, hkey⟩

/-- Every property is reported under a name that agrees with it in small letters. -/
theorem exists_mem_propertyNames {e : Expr} (h : name ∈ e.properties) :
    ∃ n ∈ e.propertyNames, n ∈ e.properties ∧ Text.fold n = Text.fold name := by
  have hkept : _ ∨ ∃ n ∈ e.propertyNames, Text.fold n = Text.fold name := exists_of_mem h
  rcases hkept with hmet | ⟨n, hn, hfold⟩
  · exact absurd hmet List.not_mem_nil
  · exact ⟨n, hn, firstByKey_subset hn, hfold⟩

end Expr

/-! ## Columns that agree in small letters -/

/-- The columns that the tree reports decide its value: it is the same for rows with the same values
in these columns. -/
def ReportSuffices (columns : List Column) (e : Expr) : Prop :=
  ∀ (scope : Scope) (row : Row), scope.columns = columns →
    SameValues columns e.propertyNames scope.row row → { scope with row }.eval e = scope.eval e

/-- The report suffices where the names of the tree that agree in small letters name the same
column. -/
theorem reportSuffices_of_column?_eq {columns : List Column} {e : Expr}
    (h : ∀ m ∈ e.properties, ∀ n ∈ e.properties, Text.fold m = Text.fold n →
      column? columns m = column? columns n) : ReportSuffices columns e := by
  rintro scope row rfl hvalues
  apply scope.eval_congr row e
  intro name hname c hc
  obtain ⟨n, hreported, hn, hfold⟩ := Expr.exists_mem_propertyNames hname
  apply hvalues n hreported c
  rw [h n hn name hname hfold, hc]

/-- Two names that agree in small letters and do not name the same column are looked up as ids. -/
theorem column?_ne_cases {columns : List Column} {m n : String} (hfold : Text.fold m = Text.fold n)
    (h : column? columns m ≠ column? columns n) :
    column? columns m = columnById? columns m ∧ column? columns n = columnById? columns n := by
  unfold column? at h ⊢
  rw [hfold] at h ⊢
  cases hfind : columns.find? fun c => Text.fold c.name = Text.fold n with
  | none => exact ⟨rfl, rfl⟩
  | some c =>
      rw [hfind] at h
      exact absurd rfl h

/-- A conditional that reads its second property only. -/
def skipping (m n : String) : Expr := .conditional (.boolean false) (.property m) (.property n)

theorem eval_skipping {scope : Scope} (hdepth : scope.maxDepth = 2) (m n : String) :
    scope.eval (skipping m n) = scope.property n := by
  simp only [Scope.eval, skipping, Scope.evalAt, hdepth]
  rfl

theorem empty_value (id : String) (c : Column) : (Row.empty id).value c = .null := by
  simp [Row.value, Row.cell, Row.empty]

/-- A row that is true in one column. -/
def trueIn (id : String) : Row :=
  ((Row.empty "").setCell id (.boolean true)).setComputed id (.boolean true)

theorem trueIn_value_self (c : Column) : (trueIn c.id).value c = .boolean true := by
  simp [Row.value, Row.cell, trueIn, Row.setComputed, Row.setCell]

theorem trueIn_value_ne {id : String} {c : Column} (h : c.id ≠ id) :
    (trueIn id).value c = .null := by
  have hcompare : compare id c.id ≠ .eq := by
    intro heq
    exact h (Std.LawfulEqCmp.compare_eq_iff_eq.mp heq).symm
  simp [Row.value, Row.cell, trueIn, Row.setComputed, Row.setCell, Row.empty, hcompare]

/-- A tree may read a column under an id that agrees in small letters with the only name that it
reports. -/
theorem not_reportSuffices_skipping {columns : List Column} {m n : String} {c : Column}
    (hfold : Text.fold m = Text.fold n) (hm : column? columns m = columnById? columns m)
    (hn : column? columns n = columnById? columns n) (hc : columnById? columns n = some c)
    (hne : m ≠ n) : ¬ ReportSuffices columns (skipping m n) := by
  intro h
  have hid : c.id = n := by simpa using List.find?_some hc
  subst hid
  let scope : Scope :=
    { row := trueIn c.id, columns, now := ⟨0, 0, 0, by decide, by decide, by decide, by decide⟩
      maxDepth := 2, custom := ∅ }
  have hreport : (skipping m c.id).propertyNames = [m] := by
    simp [skipping, Expr.propertyNames, Expr.properties, Expr.firstByKey, hfold]
  have hvalues : SameValues columns (skipping m c.id).propertyNames scope.row (Row.empty "") := by
    intro name hname d hd
    rw [hreport, List.mem_singleton] at hname
    rw [hname, hm] at hd
    have hdid : d.id = m := by simpa using List.find?_some hd
    rw [trueIn_value_ne (hdid ▸ hne), empty_value]
  have hcolumn : column? columns c.id = some c := by rw [hn, hc]
  -- the value is that of the second property
  have heval (row : Row) : { scope with row }.eval (skipping m c.id) = .ok (row.value c) := by
    rw [eval_skipping rfl, Scope.property, hcolumn]
  have hsame := h scope (Row.empty "") rfl hvalues
  rw [heval, empty_value] at hsame
  rw [show scope.eval (skipping m c.id) = .ok ((trueIn c.id).value c) from heval (trueIn c.id),
    trueIn_value_self] at hsame
  cases hsame

/-- **What reported names are enough for.** Rows with the same values in the columns that a tree
reports have the same value, where the names in the tree that agree in small letters name the same
column. For the columns of a table this is so for all trees exactly if names that agree in small
letters always name the same column. -/
theorem reported_names_suffice_iff (columns : List Column) :
    (∀ e : Expr, (∀ m ∈ e.properties, ∀ n ∈ e.properties, Text.fold m = Text.fold n →
        column? columns m = column? columns n) → ReportSuffices columns e) ∧
      ((∀ e, ReportSuffices columns e) ↔
        ∀ m n, Text.fold m = Text.fold n → column? columns m = column? columns n) := by
  refine ⟨fun e => reportSuffices_of_column?_eq, ?_, ?_⟩
  · intro hsuffices m n hfold
    by_contra hcolumns
    have hne : m ≠ n := fun h => hcolumns (h ▸ rfl)
    obtain ⟨hm, hn⟩ := column?_ne_cases hfold hcolumns
    -- one of the names is the id of a column: the tree that reads this one reports the other
    cases hc : columnById? columns n with
    | some c => exact not_reportSuffices_skipping hfold hm hn hc hne (hsuffices _)
    | none =>
        cases hd : columnById? columns m with
        | some d => exact not_reportSuffices_skipping hfold.symm hn hm hd hne.symm (hsuffices _)
        | none =>
            rw [hm, hn, hc, hd] at hcolumns
            exact hcolumns rfl
  · intro h e
    exact reportSuffices_of_column?_eq fun m _ n _ => h m n

/-- Two columns whose ids differ in the case of a letter. -/
def siblings : List Column :=
  [{ id := "a1", name := "First", kind := .text, config := none },
    { id := "A1", name := "Second", kind := .text, config := none }]

/-- The sum of the two columns. -/
def siblingSum : Expr := .binary .add (.property "a1") (.property "A1")

/-- The sum reports the first column only: rows that agree in it may have different sums. -/
theorem not_reportSuffices_siblingSum : ¬ ReportSuffices siblings siblingSum := by
  intro h
  let scope : Scope :=
    { row := (Row.empty "r").setCell "A1" (.text "x"), columns := siblings
      now := ⟨0, 0, 0, by decide, by decide, by decide, by decide⟩, maxDepth := 100, custom := ∅ }
  have hvalues : SameValues siblings siblingSum.propertyNames scope.row (Row.empty "r") := by
    intro name hname c hc
    have hreport : siblingSum.propertyNames = ["a1"] := by decide
    have hcolumn : column? siblings "a1" = siblings[0]? := by decide
    rw [hreport, List.mem_singleton] at hname
    rw [hname, hcolumn] at hc
    cases hc
    decide
  have hdiffer : ({ scope with row := Row.empty "r" }.eval siblingSum).toOption ≠
      (scope.eval siblingSum).toOption := by
    decide
  exact hdiffer (congrArg Except.toOption (h scope (Row.empty "r") rfl hvalues))

end FormulaTable.Formula
