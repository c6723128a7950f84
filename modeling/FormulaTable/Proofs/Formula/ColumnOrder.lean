import FormulaTable.Proofs.Formula.Dependence
import Mathlib.Data.List.Find
import Mathlib.Data.List.Nodup

/-!
# The order of columns

A property names the first column with its name, and after all names the first one with its id.
Where no two columns agree in the small letters of their names, and no two in their ids, there is
only one such column to find, and a tree has the same result in whatever order the columns stand.
The name of one column may be the id of another: a column is found by its name before any is found
by its id.
-/

namespace FormulaTable.Formula

variable {columns columns' : List Column}

/-- Columns with different keys are found under them in any order. -/
theorem find?_of_perm (hperm : columns.Perm columns') {key : Column → String}
    (hkeys : (columns.map key).Nodup) (k : String) :
    columns'.find? (key · = k) = columns.find? (key · = k) := by
  refine (List.find?_eq_find?_of_perm hperm ?_).symm
  rintro c ⟨hc, hck⟩ d ⟨hd, hdk⟩
  have hkey : key c = key d := (of_decide_eq_true hck).trans (of_decide_eq_true hdk).symm
  exact List.inj_on_of_nodup_map hkeys hc hd hkey

/-- A property names the same column in any order of columns with different names and ids. -/
theorem column?_of_perm (hperm : columns.Perm columns')
    (hnames : (columns.map fun c => Text.fold c.name).Nodup) (hids : (columns.map Column.id).Nodup)
    (name : String) : column? columns' name = column? columns name := by
  rw [column?, column?, columnById?, columnById?, find?_of_perm hperm hnames,
    find?_of_perm hperm hids]

/-- **The order of columns does not matter.** Where the columns of a scope have different names,
also in small letters, and different ids, every tree has the same result if they stand in another
order. -/
theorem eval_of_columns_perm (scope : Scope) (columns : List Column)
    (hperm : scope.columns.Perm columns)
    (hnames : (scope.columns.map fun c => Text.fold c.name).Nodup)
    (hids : (scope.columns.map Column.id).Nodup) (e : Expr) :
    { scope with columns }.eval e = scope.eval e := by
  refine Scope.evalAt_agrees 1 e ⟨rfl, ?_, fun _ _ _ => rfl⟩
  intro name _
  rw [Scope.property, Scope.property, column?_of_perm hperm hnames hids]

/-- A row of three columns. The names of two of them are the ids of others. -/
def crossed : Scope where
  row := ((Row.empty "r").setCell "a" (.text "x")).setCell "b" (.text "y")
  columns := [{ id := "a", name := "b", kind := .text, config := none },
    { id := "b", name := "C", kind := .text, config := none },
    { id := "c", name := "d", kind := .text, config := none }]
  now := ⟨20000, 3600, 5, by decide, by decide, by decide, by decide⟩
  maxDepth := 3
  custom := ∅

/-- The property `b` is the column with this name and not the one with this id, also where the
latter stands first; `c` is a name, `a` an id, and `e` neither. -/
theorem crossed_read_backwards :
    let backwards : Scope := { crossed with columns := crossed.columns.reverse }
    let e : Expr := .binary .add (.property "b") (.binary .add (.property "c") (.property "a"))
    crossed.columns.Perm backwards.columns ∧
      (crossed.columns.map fun c => Text.fold c.name).Nodup ∧
      (crossed.columns.map Column.id).Nodup ∧
      crossed.eval e = .ok (.text "xyx") ∧ backwards.eval e = .ok (.text "xyx") ∧
      backwards.eval (.property "e") = .error (.error (.unknownProperty "e")) := by
  intro backwards e
  have hperm : crossed.columns.Perm backwards.columns := (List.reverse_perm _).symm
  have hnames : (crossed.columns.map fun c => Text.fold c.name).Nodup := by decide
  have hids : (crossed.columns.map Column.id).Nodup := by decide
  have heval := eval_of_columns_perm crossed backwards.columns hperm hnames hids
  have hvalue : crossed.eval e = .ok (.text "xyx") := by decide
  refine ⟨hperm, hnames, hids, hvalue, (heval e).trans hvalue, (heval (.property "e")).trans ?_⟩
  decide

end FormulaTable.Formula
