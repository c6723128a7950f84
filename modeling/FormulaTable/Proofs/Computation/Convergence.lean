import FormulaTable.Proofs.Computation.Recomputation
import Mathlib.Data.List.Nodup

/-!
# Computing a row over and over

Where derived columns are not in the order in which they read each other, one pass over a row may read
what the row held before it. If no column reads itself, not even through others, the columns have
ranks, and every pass settles the columns of one rank more: whatever the row held at first, after one
pass more than the greatest rank all its derived columns are computed from its cells alone, and no
further pass changes the row.
-/

namespace FormulaTable

open Calendar (Fault Instant)
open Formula (Engine)

/-! ## Ranks -/

/-- Every formula reads derived columns of lower rank only. -/
def Ranked (columns : List Column) (rank : Column → Nat) : Prop :=
  ∀ c ∈ columns, ∀ d, Reads columns c d → rank d < rank c

/-- The derived columns have different ids. -/
def DistinctIds (columns : List Column) : Prop :=
  ((columns.filter (·.kind.isDerived)).map Column.id).Nodup

/-- The columns of rank below `k`. -/
def ranksBelow (columns : List Column) (rank : Column → Nat) (k : Nat) : List Column :=
  columns.filter (rank · < k)

theorem ranksBelow_append (columns others : List Column) (rank : Column → Nat) (k : Nat) :
    ranksBelow (columns ++ others) rank k = ranksBelow columns rank k ++ ranksBelow others rank k :=
  List.filter_append ..

variable {columns known others before after : List Column} {rank : Column → Nat} {k : Nat}
  {c d : Column}

theorem mem_ranksBelow : c ∈ ranksBelow columns rank k ↔ c ∈ columns ∧ rank c < k := by
  rw [ranksBelow, List.mem_filter, decide_eq_true_iff]

theorem Reads.mem (h : Reads columns c d) : d ∈ columns := by
  obtain ⟨-, -, text, e, -, -, name, -, hd⟩ := h
  unfold Formula.column? Formula.columnById? at hd
  rw [Option.orElse_eq_orElse, Option.orElse_eq_or] at hd
  rcases Option.or_eq_some_iff.mp hd with hd | ⟨-, hd⟩
  · exact List.mem_of_find?_eq_some hd
  · exact List.mem_of_find?_eq_some hd

/-- A column reads the columns that the properties of its formula name. -/
theorem Reads.exists_name (h : Reads columns c d) {text : String} {names : List String}
    (htext : c.formula? = some text)
    (hnames : (Formula.parse text).toOption.map Formula.Expr.properties = some names) :
    ∃ name ∈ names, Formula.column? columns name = some d := by
  obtain ⟨-, -, text', e, htext', he, hname⟩ := h
  rw [htext, Option.some_inj] at htext'
  rw [htext', he] at hnames
  rwa [← Option.some.inj hnames]

/-- A column of rank at most `k` reads columns of rank below `k`. -/
theorem Ranked.reads (h : Ranked columns rank) (hc : c ∈ columns) (hrank : rank c ≤ k)
    (hreads : Reads columns c d) :
    ∃ b ∈ ranksBelow columns rank k, b.kind.isDerived ∧ b.id = d.id := by
  have hlower : rank d < k := Nat.lt_of_lt_of_le (h c hc d hreads) hrank
  exact ⟨d, mem_ranksBelow.mpr ⟨hreads.mem, hlower⟩, hreads.2.1, rfl⟩

/-- Derived columns with the same id are the same. -/
theorem DistinctIds.eq (h : DistinctIds columns) (hc : c ∈ columns) (hd : d ∈ columns)
    (hcderived : c.kind.isDerived) (hdderived : d.kind.isDerived) (hid : c.id = d.id) : c = d :=
  List.inj_on_of_nodup_map h (List.mem_filter.mpr ⟨hc, hcderived⟩)
    (List.mem_filter.mpr ⟨hd, hdderived⟩) hid

/-! ## Rows that agree -/

namespace Row.Agree

variable {row row' : Row}

theorem refl {columns : List Column} {row : Row} : Agree columns row row :=
  ⟨rfl, rfl, fun _ _ _ => rfl⟩

theorem mono (h : Agree known row row') (hsub : others ⊆ known) : Agree others row row' :=
  ⟨h.id, h.cells, fun c hc => h.computed c (hsub hc)⟩

/-- A column of another id may be computed differently. -/
theorem setComputed_ne (h : Agree known row row')
    (hne : ∀ b ∈ known, b.kind.isDerived → b.id ≠ c.id) (v v' : Value) :
    Agree known (row.setComputed c.id v) (row'.setComputed c.id v') := by
  refine ⟨h.id, h.cells, ?_⟩
  intro b hb hderived
  have hcompare : compare c.id b.id ≠ .eq := by
    intro heq
    exact hne b hb hderived (Std.LawfulEqCmp.compare_eq_iff_eq.mp heq).symm
  rw [Row.setComputed, Row.setComputed, Std.ExtTreeMap.getElem?_insert,
    Std.ExtTreeMap.getElem?_insert, if_neg hcompare, if_neg hcompare]
  exact h.computed b hb hderived

end Row.Agree

/-- The outcome of one column and then of others is stored one after another. -/
theorem Row.store_ofColumn (row : Row) (id : String) (kind : ColumnKind)
    (result : Except ComputationError Value) (o : Outcome) :
    row.store (Outcome.ofColumn id kind result ++ o) =
      (row.setComputed id (result.toOption.getD .null)).store o := by
  cases result <;> rfl

/-! ## One pass -/

namespace Setting

variable {s : Setting} {row row' : Row} {start engine engine' : Engine}

/-- What computing a column leaves of an engine is like the engine. -/
theorem derived_alike (hresolver : s.resolver.ReadsCells) (h : start.Alike engine)
    {result : Except ComputationError Value}
    (hresult : s.derived engine row c = .ok (result, engine')) : start.Alike engine' := by
  have hreads : ∀ d, Reads s.columns c d → ∃ b ∈ s.columns, b.kind.isDerived ∧ b.id = d.id :=
    fun d hd => ⟨d, hd.mem, hd.2.1, rfl⟩
  have hsame : Row.Agree s.columns row row := .refl
  have hend := derived_endAlike hresolver hreads hsame h h
  rw [hresult] at hend
  cases hend with
  | ok h => exact h

/-- The columns of rank at most `k` are computed alike from rows that agree on the columns of lower
rank, whatever becomes of the columns of higher rank. -/
theorem computeColumns_agree (hskips : ∀ kind, s.skips.skips kind = false)
    (hresolver : s.resolver.ReadsCells) (hids : DistinctIds s.columns)
    (hrank : Ranked s.columns rank) (hsplit : s.columns = before ++ after)
    (hrow : Row.Agree (ranksBelow s.columns rank k ++ ranksBelow before rank (k + 1)) row row')
    (h : start.Alike engine) (h' : start.Alike engine') {o o' : Outcome} {last last' : Engine}
    (hlast : s.computeColumns engine row after = .ok (o, last))
    (hlast' : s.computeColumns engine' row' after = .ok (o', last')) :
    start.Alike last ∧ start.Alike last' ∧
      Row.Agree (ranksBelow s.columns rank k ++ ranksBelow s.columns rank (k + 1)) (row.store o)
        (row'.store o') := by
  induction after generalizing before row row' engine engine' o o' with
  | nil =>
      cases hlast
      cases hlast'
      rw [List.append_nil] at hsplit
      exact ⟨h, h', hsplit ▸ hrow⟩
  | cons c after ih =>
      have hsplit' : s.columns = (before ++ [c]) ++ after := by
        rw [hsplit, List.append_assoc, List.singleton_append]
      have hc : c ∈ s.columns := by
        rw [hsplit]
        exact List.mem_append_right _ List.mem_cons_self
      have hnext : ranksBelow s.columns rank k ++ ranksBelow (before ++ [c]) rank (k + 1) ⊆
          ranksBelow s.columns rank k ++ ranksBelow before rank (k + 1) ++ [c] := by
        rw [ranksBelow_append, ← List.append_assoc]
        exact List.append_subset.mpr ⟨List.subset_append_left _ _,
          List.subset_append_of_subset_right _ List.filter_sublist.subset⟩
      rw [computeColumns] at hlast hlast'
      by_cases hderived : c.kind.isDerived
      · rw [hderived, hskips] at hlast hlast'
        obtain ⟨⟨result, engine₁⟩, hresult, hlast⟩ := bind_eq_ok hlast
        obtain ⟨⟨result', engine₁'⟩, hresult', hlast'⟩ := bind_eq_ok hlast'
        obtain ⟨⟨rest, engine₂⟩, hrest, hlast⟩ := bind_eq_ok hlast
        obtain ⟨⟨rest', engine₂'⟩, hrest', hlast'⟩ := bind_eq_ok hlast'
        cases hlast
        cases hlast'
        have hstart := derived_alike hresolver h hresult
        have hstart' := derived_alike hresolver h' hresult'
        rw [Row.store_ofColumn, Row.store_ofColumn]
        refine ih hsplit' ?_ hstart hstart' hrest hrest'
        by_cases hlow : rank c ≤ k
        · -- both rows go on with the same result
          have hend := derived_endAlike hresolver
            (fun d => hrank.reads hc hlow) (hrow.mono (List.subset_append_left _ _)) h h'
          rw [hresult, hresult'] at hend
          cases hend
          exact (hrow.setComputed c _).mono hnext
        · -- no column that the rows agree on has the id of this one
          have hnone : ranksBelow [c] rank (k + 1) = [] := by
            simp only [ranksBelow, List.filter_singleton]
            rw [decide_eq_false (by omega)]
            rfl
          rw [ranksBelow_append, hnone, List.append_nil]
          apply hrow.setComputed_ne
          intro b hb hbderived hid
          have hlower : b ∈ s.columns ∧ rank b ≤ k := by
            rcases List.mem_append.mp hb with hb | hb
            · obtain ⟨hb, hlt⟩ := mem_ranksBelow.mp hb
              exact ⟨hb, Nat.le_of_lt hlt⟩
            · obtain ⟨hb, hlt⟩ := mem_ranksBelow.mp hb
              exact ⟨hsplit ▸ List.mem_append_left _ hb, Nat.le_of_lt_succ hlt⟩
          have hbc : b = c := hids.eq hlower.1 hc hbderived hderived hid
          exact hlow (hbc ▸ hlower.2)
      · have hskip := hrow.skip hderived
        rw [Bool.not_eq_true] at hderived
        rw [hderived] at hlast hlast'
        exact ih hsplit' (hskip.mono hnext) h h' hlast hlast'

/-- **One pass.** It settles the columns of one rank more. -/
theorem apply_agree (hskips : ∀ kind, s.skips.skips kind = false)
    (hresolver : s.resolver.ReadsCells) (hids : DistinctIds s.columns)
    (hrank : Ranked s.columns rank) (hrow : Row.Agree (ranksBelow s.columns rank k) row row')
    (h : start.Alike engine) (h' : start.Alike engine') {o o' : Outcome} {next next' : Row}
    {last last' : Engine} (hnext : s.apply engine row = .ok (o, next, last))
    (hnext' : s.apply engine' row' = .ok (o', next', last')) :
    start.Alike last ∧ start.Alike last' ∧
      Row.Agree (ranksBelow s.columns rank (k + 1)) next next' := by
  obtain ⟨hcompute, rfl⟩ := apply_eq_ok.mp hnext
  obtain ⟨hcompute', rfl⟩ := apply_eq_ok.mp hnext'
  have hrow : Row.Agree (ranksBelow s.columns rank k ++ ranksBelow [] rank (k + 1)) row row' :=
    (List.append_nil (ranksBelow s.columns rank k)).symm ▸ hrow
  obtain ⟨hlast, hlast', hagree⟩ := computeColumns_agree hskips hresolver hids hrank
    (List.nil_append _).symm hrow h h' hcompute hcompute'
  exact ⟨hlast, hlast', hagree.mono (List.subset_append_right _ _)⟩

/-- A row that agrees with the row it was computed from in all columns that are read is left as it is
by another pass. -/
theorem apply_settled (hskips : ∀ kind, s.skips.skips kind = false)
    (hresolver : s.resolver.ReadsCells)
    (hreads : ∀ c ∈ s.columns, ∀ d, Reads s.columns c d →
      ∃ b ∈ known, b.kind.isDerived ∧ b.id = d.id)
    {next : Row} (hrow : Row.Agree known row next) (h : start.Alike engine)
    (h' : start.Alike engine') {o : Outcome} {last : Engine}
    (hnext : s.apply engine row = .ok (o, next, last)) :
    ∃ last', s.apply engine' next = .ok (o, next, last') := by
  obtain ⟨hcompute, rfl⟩ := apply_eq_ok.mp hnext
  have hrow : Row.Agree (known ++ []) row (row.store o) := (List.append_nil known).symm ▸ hrow
  have hreads : ∀ before c after, s.columns = before ++ c :: after → ∀ d, Reads s.columns c d →
      ∃ b ∈ known ++ before, b.kind.isDerived ∧ b.id = d.id := by
    intro before c after hsplit d hd
    have hc : c ∈ s.columns := hsplit ▸ List.mem_append_right _ List.mem_cons_self
    obtain ⟨b, hb, hderived⟩ := hreads c hc d hd
    exact ⟨b, List.mem_append_left _ hb, hderived⟩
  have hend : EndAlike start (s.compute engine row) (s.compute engine' (row.store o)) :=
    computeColumns_endAlike hskips hresolver hreads (List.nil_append _).symm hrow h h'
  rw [hcompute] at hend
  generalize hagain : s.compute engine' (row.store o) = again at hend
  cases hend with
  | @ok _ _ last' =>
      refine ⟨last', apply_eq_ok.mpr ⟨hagain, ?_⟩⟩
      rw [row.store_store]

end Setting

/-! ## Many passes -/

/-- Computes a row `n` times over and stores each outcome in it. -/
def Setting.applyTimes (s : Setting) (engine : Engine) (row : Row) :
    Nat → Except Fault (Row × Engine)
  | 0 => .ok (row, engine)
  | n + 1 => do
    let (row, engine) ← s.applyTimes engine row n
    let (_, row, engine) ← s.apply engine row
    return (row, engine)

namespace Setting

variable {s : Setting} {row row' next next' : Row} {start engine engine' last last' : Engine}
  {n : Nat}

theorem applyTimes_succ_eq_ok :
    s.applyTimes engine row (n + 1) = .ok (next, last) ↔
      ∃ row₁ engine₁ o, s.applyTimes engine row n = .ok (row₁, engine₁) ∧
        s.apply engine₁ row₁ = .ok (o, next, last) := by
  rw [applyTimes]
  constructor
  · intro h
    obtain ⟨⟨row₁, engine₁⟩, h₁, h⟩ := bind_eq_ok h
    obtain ⟨⟨o, row₂, engine₂⟩, h₂, h⟩ := bind_eq_ok h
    cases h
    exact ⟨row₁, engine₁, o, h₁, h₂⟩
  · rintro ⟨row₁, engine₁, o, h₁, h₂⟩
    rw [h₁]
    show (s.apply engine₁ row₁).bind _ = _
    rw [h₂]
    rfl

/-- **Many passes.** After `n` passes rows with the same id and cells agree on the columns of rank
below `n`. -/
theorem applyTimes_agree (hskips : ∀ kind, s.skips.skips kind = false)
    (hresolver : s.resolver.ReadsCells) (hids : DistinctIds s.columns)
    (hrank : Ranked s.columns rank) (hid : row.id = row'.id) (hcells : row.cells = row'.cells)
    (h : start.Alike engine) (h' : start.Alike engine')
    (hnext : s.applyTimes engine row n = .ok (next, last))
    (hnext' : s.applyTimes engine' row' n = .ok (next', last')) :
    start.Alike last ∧ start.Alike last' ∧ Row.Agree (ranksBelow s.columns rank n) next next' := by
  induction n generalizing next next' last last' with
  | zero =>
      cases hnext
      cases hnext'
      refine ⟨h, h', hid, hcells, ?_⟩
      intro c hc
      exact absurd (mem_ranksBelow.mp hc).2 (Nat.not_lt_zero _)
  | succ n ih =>
      obtain ⟨row₁, engine₁, o, hn, hlast⟩ := applyTimes_succ_eq_ok.mp hnext
      obtain ⟨row₁', engine₁', o', hn', hlast'⟩ := applyTimes_succ_eq_ok.mp hnext'
      obtain ⟨h₁, h₁', hrow⟩ := ih hn hn'
      exact apply_agree hskips hresolver hids hrank hrow h₁ h₁' hlast hlast'

/-- A row agrees after `n` passes with itself one pass later on the columns of rank below `n`. -/
theorem applyTimes_succ_agree (hskips : ∀ kind, s.skips.skips kind = false)
    (hresolver : s.resolver.ReadsCells) (hids : DistinctIds s.columns)
    (hrank : Ranked s.columns rank) (h : start.Alike engine)
    (hnext : s.applyTimes engine row n = .ok (next, last)) {o : Outcome}
    (hafter : s.apply last next = .ok (o, next', last')) :
    start.Alike last ∧ start.Alike last' ∧ Row.Agree (ranksBelow s.columns rank n) next next' := by
  induction n generalizing next next' last last' o with
  | zero =>
      cases hnext
      obtain ⟨hlast, -, -⟩ :=
        apply_agree (k := 0) hskips hresolver hids hrank .refl h h hafter hafter
      obtain ⟨-, rfl⟩ := apply_eq_ok.mp hafter
      obtain ⟨hid, hcells⟩ := row.store_frame o
      refine ⟨h, hlast, hid.symm, hcells.symm, ?_⟩
      intro c hc
      exact absurd (mem_ranksBelow.mp hc).2 (Nat.not_lt_zero _)
  | succ n ih =>
      obtain ⟨row₁, engine₁, o₁, hn, hlast⟩ := applyTimes_succ_eq_ok.mp hnext
      obtain ⟨h₁, h₁', hrow⟩ := ih hn hlast
      exact apply_agree hskips hresolver hids hrank hrow h₁ h₁' hlast hafter

end Setting

/-- **Repeated passes converge.** Let the derived columns have different ids and ranks up to `bound`
with which every formula reads derived columns of lower rank only, in whatever order they stand.
After `bound + 1` passes the computed values of a row do not depend on those it held at first, and
further passes are not abandoned and leave the row as it is. -/
theorem repeated_passes_converge (columns : List Column) (resolver : Resolver) (now : Instant)
    (engine : Engine) (rank : Column → Nat) (bound : Nat) (hresolver : resolver.ReadsCells)
    (hids : DistinctIds columns) (hrank : Ranked columns rank)
    (hbound : ∀ c ∈ columns, c.kind.isDerived → rank c ≤ bound) (hengine : engine.Reachable) :
    let s : Setting := { columns, skips := {}, resolver, now }
    (∀ row row' last last' engine₁ engine₂, row.id = row'.id → row.cells = row'.cells →
      s.applyTimes engine row (bound + 1) = .ok (last, engine₁) →
      s.applyTimes engine row' (bound + 1) = .ok (last', engine₂) →
      ∀ c ∈ columns, c.kind.isDerived → last.computed[c.id]? = last'.computed[c.id]?) ∧
    ∀ row last engine₁, s.applyTimes engine row (bound + 1) = .ok (last, engine₁) →
      ∀ n, ∃ engine₂, s.applyTimes engine row (bound + 1 + n) = .ok (last, engine₂) := by
  intro s
  have hskips : ∀ kind, s.skips.skips kind = false := by
    intro kind
    unfold Skips.skips
    split <;> rfl
  have hself : engine.Alike engine := ⟨rfl, rfl, hengine.faithful, hengine.faithful⟩
  refine ⟨?_, ?_⟩
  · intro row row' last last' engine₁ engine₂ hid hcells h h' c hc hderived
    obtain ⟨-, -, hagree⟩ :=
      s.applyTimes_agree hskips hresolver hids hrank hid hcells hself hself h h'
    have hlow : c ∈ ranksBelow columns rank (bound + 1) :=
      mem_ranksBelow.mpr ⟨hc, Nat.lt_succ_of_le (hbound c hc hderived)⟩
    exact hagree.computed c hlow hderived
  · intro row last engine₁ h n
    induction n with
    | zero => exact ⟨engine₁, h⟩
    | succ n ih =>
        obtain ⟨engine₂, hn⟩ := ih
        -- the last pass so far has left the row as it was in all columns that are read
        rw [Nat.add_right_comm] at hn
        obtain ⟨row₁, engine₃, o, hbefore, hlast⟩ := Setting.applyTimes_succ_eq_ok.mp hn
        obtain ⟨halike, halike', hagree⟩ :=
          s.applyTimes_succ_agree hskips hresolver hids hrank hself hbefore hlast
        have hreads : ∀ c ∈ columns, ∀ d, Reads columns c d →
            ∃ b ∈ ranksBelow columns rank (bound + n), b.kind.isDerived ∧ b.id = d.id := by
          intro c hc d hd
          have hformula : c.kind.isDerived := by rw [hd.1]; rfl
          exact hrank.reads hc (Nat.le_add_right_of_le (hbound c hc hformula)) hd
        obtain ⟨engine₄, hagain⟩ :=
          s.apply_settled hskips hresolver hreads hagree halike halike' hlast
        rw [Nat.add_right_comm]
        exact ⟨engine₄, Setting.applyTimes_succ_eq_ok.mpr ⟨last, engine₂, o, hn, hagain⟩⟩

/-- The table of `labels` with the label before the formula that it reads. -/
def labelsFirst : Setting :=
  { labels with columns := [labels.columns[0], labels.columns[2], labels.columns[1]] }

/-- The rank of a column of `labelsFirst`. -/
def labelRank (c : Column) : Nat := if c.id = "l" then 1 else 0

/-- After two passes the label of a row is the same, whether or not the row held a stale name in
capital letters, and stays as it is. -/
theorem labels_settle_in_two_passes :
    let row := (Row.empty "r").setCell "n" (.text "ada")
    let row' := (row.setComputed "u" (.text "STALE")).setComputed "l" (.text "OLD")
    labelsFirst.resolver.ReadsCells ∧ DistinctIds labelsFirst.columns ∧
      Ranked labelsFirst.columns labelRank ∧
      (∀ c ∈ labelsFirst.columns, c.kind.isDerived → labelRank c ≤ 1) ∧
      (Engine.new {}).Reachable ∧ ∃ last last' engine₁ engine₂ engine₃,
        labelsFirst.applyTimes (Engine.new {}) row 2 = .ok (last, engine₁) ∧
        labelsFirst.applyTimes (Engine.new {}) row' 2 = .ok (last', engine₂) ∧
        last.computed["l"]? = last'.computed["l"]? ∧
        labelsFirst.applyTimes (Engine.new {}) row 3 = .ok (last, engine₃) := by
  intro row row'
  have hresolver : labelsFirst.resolver.ReadsCells := TableSet.empty.resolve_readsCells
  have hids : DistinctIds labelsFirst.columns := by
    unfold DistinctIds
    decide
  have hrank : Ranked labelsFirst.columns labelRank := by
    intro c hc d hreads
    have hc : c = labels.columns[0] ∨ c = labels.columns[2] ∨ c = labels.columns[1] := by
      simpa [labelsFirst] using hc
    rcases hc with rfl | rfl | rfl
    · cases hreads.1
    · obtain ⟨name, hname, hd⟩ :=
        hreads.exists_name (c := labels.columns[2]) rfl (by decide +kernel : _ = some ["Upper"])
      have hcolumn : Formula.column? labelsFirst.columns "Upper" = labels.columns[1]? := by
        decide +kernel
      rw [List.mem_singleton.mp hname, hcolumn] at hd
      cases hd
      decide
    · obtain ⟨name, hname, hd⟩ :=
        hreads.exists_name (c := labels.columns[1]) rfl (by decide +kernel : _ = some ["Name"])
      have hcolumn : Formula.column? labelsFirst.columns "Name" = labels.columns[0]? := by
        decide +kernel
      rw [List.mem_singleton.mp hname, hcolumn] at hd
      cases hd
      -- the name is not derived
      cases hreads.2.1
  have hbound : ∀ c ∈ labelsFirst.columns, c.kind.isDerived → labelRank c ≤ 1 := by decide
  have hengine : (Engine.new {}).Reachable := ⟨{}, [], rfl⟩
  have hok (row : Row) (h : (labelsFirst.applyTimes (Engine.new {}) row 2).toOption.isSome = true) :
      ∃ last engine₁, labelsFirst.applyTimes (Engine.new {}) row 2 = .ok (last, engine₁) := by
    cases hresult : labelsFirst.applyTimes (Engine.new {}) row 2 with
    | error fault =>
        rw [hresult] at h
        cases h
    | ok result => exact ⟨result.1, result.2, rfl⟩
  obtain ⟨last, engine₁, h⟩ := hok row (by decide +kernel)
  obtain ⟨last', engine₂, h'⟩ := hok row' (by decide +kernel)
  obtain ⟨hsame, hstays⟩ := repeated_passes_converge labelsFirst.columns labelsFirst.resolver
    labelsFirst.now (Engine.new {}) labelRank 1 hresolver hids hrank hbound hengine
  obtain ⟨engine₃, hlast⟩ := hstays row last engine₁ h 1
  exact ⟨hresolver, hids, hrank, hbound, hengine, last, last', engine₁, engine₂, engine₃, h, h',
    hsame row row' last last' engine₁ engine₂ rfl rfl h h' labels.columns[2] (by decide) rfl, hlast⟩

end FormulaTable
