import FormulaTable.Proofs.Computation.Results
import Mathlib.Algebra.GroupWithZero.Nat

/-!
# Rows of a batch

The engine goes from one row of a batch to the next with all that it has remembered. No row depends on
that: each is what it would be alone, with an engine that has done nothing yet.
-/

namespace FormulaTable

open Calendar (Fault)
open Formula (Engine)

/-- An engine with the same options and functions that has done nothing yet. -/
def Formula.Engine.renewed (engine : Engine) : Engine :=
  { Engine.new engine.options with custom := engine.custom }

/-- The counts of several rows, added up. -/
def Statistics.total (counts : List Statistics) : Statistics where
  formulas := (counts.map Statistics.formulas).sum
  rollups := (counts.map Statistics.rollups).sum
  errors := (counts.map Statistics.errors).sum
  skipped := (counts.map Statistics.skipped).sum

theorem Statistics.total_perm {counts counts' : List Statistics} (h : counts.Perm counts') :
    total counts = total counts' := by
  rw [total, total, (h.map formulas).sum_nat, (h.map rollups).sum_nat, (h.map errors).sum_nat,
    (h.map skipped).sum_nat]

/-! ## Steps on the elements of a list -/

section MapM

variable {ε α β : Type} {f : α → Except ε β} {a : α} {as as' : List α} {bs : List β}

theorem mapM_cons_eq_ok : (a :: as).mapM f = .ok bs ↔
    ∃ b rest, f a = .ok b ∧ as.mapM f = .ok rest ∧ b :: rest = bs := by
  rw [List.mapM_cons]
  constructor
  · intro h
    obtain ⟨b, hb, h⟩ := bind_eq_ok h
    obtain ⟨rest, hrest, h⟩ := bind_eq_ok h
    cases h
    exact ⟨b, rest, hb, hrest, rfl⟩
  · rintro ⟨b, rest, hb, hrest, rfl⟩
    rw [hb, hrest]
    rfl

theorem length_of_mapM_eq_ok (h : as.mapM f = .ok bs) : as.length = bs.length := by
  induction as generalizing bs with
  | nil =>
      cases h
      rfl
  | cons a as ih =>
      obtain ⟨b, rest, -, hrest, rfl⟩ := mapM_cons_eq_ok.mp h
      exact congrArg (· + 1) (ih hrest)

/-- Steps that do not depend on each other may be taken in any order. -/
theorem mapM_perm (hperm : as.Perm as') (h : as.mapM f = .ok bs) :
    ∃ bs', as'.mapM f = .ok bs' ∧ (as.zip bs).Perm (as'.zip bs') := by
  induction hperm generalizing bs with
  | nil => exact ⟨bs, h, .refl _⟩
  | cons a _ ih =>
      obtain ⟨b, rest, hb, hrest, rfl⟩ := mapM_cons_eq_ok.mp h
      obtain ⟨rest', hrest', hzip⟩ := ih hrest
      exact ⟨b :: rest', mapM_cons_eq_ok.mpr ⟨b, rest', hb, hrest', rfl⟩, hzip.cons (a, b)⟩
  | swap a₁ a₂ as =>
      obtain ⟨b₂, _, hb₂, htail, rfl⟩ := mapM_cons_eq_ok.mp h
      obtain ⟨b₁, rest, hb₁, hrest, rfl⟩ := mapM_cons_eq_ok.mp htail
      have hswapped := mapM_cons_eq_ok.mpr ⟨b₂, rest, hb₂, hrest, rfl⟩
      exact ⟨b₁ :: b₂ :: rest, mapM_cons_eq_ok.mpr ⟨b₁, _, hb₁, hswapped, rfl⟩, .swap _ _ _⟩
  | trans _ _ ih ih' =>
      obtain ⟨bs', h', hzip⟩ := ih h
      obtain ⟨bs'', h'', hzip'⟩ := ih' h'
      exact ⟨bs'', h'', hzip.trans hzip'⟩

end MapM

/-! ## Rows alone -/

namespace Setting

variable {s : Setting} {start engine : Engine} {row : Row} {rows : List Row}

/-- The counts for a row and the row with its values, computed with an engine. -/
def applied (s : Setting) (engine : Engine) (row : Row) : Except Fault (Statistics × Row) :=
  (s.apply engine row).map fun result => (result.1.statistics, result.2.1)

/-- What a row becomes does not depend on what the engine remembers. -/
theorem apply_alike (s : Setting) (row : Row) (h : start.Alike engine) :
    (∃ o row' engine₁ engine₂, s.apply start row = .ok (o, row', engine₁) ∧
      s.apply engine row = .ok (o, row', engine₂) ∧ start.Alike engine₂) ∨
    ∃ fault, s.apply start row = .error fault ∧ s.apply engine row = .error fault := by
  have hstart : start.Alike start := h.trans h.symm
  cases hresults : s.results start row (s.columns.filter s.computes) with
  | ok results =>
      obtain ⟨engine₁, -, -, happly⟩ := apply_of_results hstart hresults
      obtain ⟨engine₂, hengine₂, -, happly'⟩ := apply_of_results h hresults
      exact .inl ⟨_, _, engine₁, engine₂, happly, happly', hengine₂⟩
  | error fault =>
      exact .inr ⟨fault, (apply_of_abandoned hstart hresults).2, (apply_of_abandoned h hresults).2⟩

/-- **Computing a batch.** Each row becomes what it becomes alone, and the counts add up. -/
theorem applyAll_eq (s : Setting) (rows : List Row) (h : start.Alike engine) :
    (s.applyAll engine rows).map (fun result => (result.1, result.2.1)) =
      (rows.mapM (s.applied start)).map fun done =>
        (Statistics.total (done.map Prod.fst), done.map Prod.snd) := by
  induction rows generalizing engine with
  | nil => rfl
  | cons row rows ih =>
      rw [applyAll, List.mapM_cons, applied]
      rcases s.apply_alike row h with
        ⟨o, row', engine₁, engine₂, halone, happly, h'⟩ | ⟨fault, halone, happly⟩
      · rw [halone, happly]
        -- what the other rows give, with the result of this row in front
        have hrest := congrArg
          (Except.map fun rest => (o.statistics + rest.1, row' :: rest.2)) (ih h')
        show ((s.applyAll engine₂ rows).bind _).map _ = ((rows.mapM (s.applied start)).bind _).map _
        generalize s.applyAll engine₂ rows = batch at hrest ⊢
        generalize rows.mapM (s.applied start) = alone at hrest ⊢
        cases batch <;> cases alone <;> exact hrest
      · rw [halone, happly]
        rfl

end Setting

/-- **The rows of a batch are independent.** Whatever the engine has remembered, each row of a batch
becomes what it becomes alone with a new engine, and the counts of the rows add up. The same rows in
another order become the same rows in that order, with the same counts. -/
theorem rows_of_batch_are_independent (s : Setting) (engine : Engine) (rows : List Row)
    (hengine : engine.Reachable) :
    (s.applyAll engine rows).map (fun result => (result.1, result.2.1)) =
      (rows.mapM (s.applied engine.renewed)).map (fun done =>
        (Statistics.total (done.map Prod.fst), done.map Prod.snd)) ∧
    ∀ rows₂ counts rows' engine', rows.Perm rows₂ →
      s.applyAll engine rows = .ok (counts, rows', engine') →
        ∃ rows₂' engine₂, s.applyAll engine rows₂ = .ok (counts, rows₂', engine₂) ∧
          (rows.zip rows').Perm (rows₂.zip rows₂') := by
  have halike : engine.renewed.Alike engine :=
    ⟨rfl, rfl, Formula.Engine.faithful_new engine.options, hengine.faithful⟩
  have hbatch := s.applyAll_eq rows halike
  refine ⟨hbatch, ?_⟩
  intro rows₂ counts rows' engine' hperm hok
  rw [hok] at hbatch
  obtain ⟨done, hdone, heq⟩ := map_eq_ok hbatch.symm
  obtain ⟨rfl, rfl⟩ : Statistics.total (done.map Prod.fst) = counts ∧ done.map Prod.snd = rows' :=
    Prod.mk.inj heq
  obtain ⟨done₂, hdone₂, hzip⟩ := mapM_perm hperm hdone
  have hdonePerm : done₂.Perm done := by
    have hsnd := hzip.symm.map Prod.snd
    rwa [List.map_snd_zip (Nat.le_of_eq (length_of_mapM_eq_ok hdone).symm),
      List.map_snd_zip (Nat.le_of_eq (length_of_mapM_eq_ok hdone₂).symm)] at hsnd
  have hbatch₂ := s.applyAll_eq rows₂ halike
  rw [hdone₂] at hbatch₂
  obtain ⟨⟨counts₂, rows₂', engine₂⟩, hok₂, heq₂⟩ := map_eq_ok hbatch₂
  obtain ⟨rfl, rfl⟩ := Prod.mk.inj heq₂
  refine ⟨done₂.map Prod.snd, engine₂, ?_, ?_⟩
  · rw [hok₂, Statistics.total_perm (hdonePerm.map Prod.fst)]
  · rw [List.zip_map_right, List.zip_map_right]
    exact hzip.map _

/-- Two rows get the labels that they get in the other order, with the same counts, though one of the
formulas is remembered at first. -/
theorem labels_do_not_depend_on_order :
    let engine := ((Engine.new {}).run [.validate "upper(prop(\"Name\"))"]).2
    let ada := (Row.empty "a").setCell "n" (.text "ada")
    let bob := (Row.empty "b").setCell "n" (.text "bob")
    engine.Reachable ∧ [ada, bob].Perm [bob, ada] ∧ ∃ counts rows rows' engine' engine'',
      labels.applyAll engine [ada, bob] = .ok (counts, rows, engine') ∧
      labels.applyAll engine [bob, ada] = .ok (counts, rows', engine'') ∧
      ([ada, bob].zip rows).Perm ([bob, ada].zip rows') ∧
      counts = { formulas := 4 } := by
  intro engine ada bob
  have hengine : engine.Reachable := ⟨{}, [.validate "upper(prop(\"Name\"))"], rfl⟩
  have hperm : [ada, bob].Perm [bob, ada] := .swap ..
  have hcounts : (labels.applyAll engine [ada, bob]).toOption.map Prod.fst =
      some { formulas := 4 } := by decide +kernel
  cases hbatch : labels.applyAll engine [ada, bob] with
  | error fault =>
      rw [hbatch] at hcounts
      cases hcounts
  | ok result =>
      obtain ⟨counts, rows, engine'⟩ := result
      rw [hbatch] at hcounts
      obtain ⟨rows', engine'', hbatch', hzip⟩ :=
        (rows_of_batch_are_independent labels engine [ada, bob] hengine).2 [bob, ada] counts rows
          engine' hperm hbatch
      exact ⟨hengine, hperm, counts, rows, rows', engine', engine'', rfl, hbatch', hzip,
        Option.some.inj hcounts⟩

end FormulaTable
