import FormulaTable.Proofs.Computation.Recomputation
import FormulaTable.Proofs.Result
import Mathlib.Data.Finset.Card
import Mathlib.Data.List.DropRight

/-!
# How often formulas are read

An engine is asked for trees, directly and by computations of rows, and is told to forget them. How
many trees it remembers and how many formulas it has read is told by the history of these events: it
remembers one tree for every formula that was read since it last forgot them, and a request is
counted unless the formula it is for was read before and not forgotten since.
-/

namespace FormulaTable

open Calendar (Fault Instant)
open Formula (Engine EngineOptions Operation)

/-! ## Histories -/

/-- What bears on the trees an engine remembers. -/
inductive Event where
  /-- The tree of this formula is asked for. -/
  | request (formula : String)
  /-- All trees are forgotten. -/
  | clear
deriving DecidableEq

/-- A formula that can be read. -/
def Readable (formula : String) : Prop := ∃ e, Formula.parse formula = .ok e

instance (formula : String) : Decidable (Readable formula) :=
  match h : Formula.parse formula with
  | .ok e => isTrue ⟨e, h⟩
  | .error _ => isFalse fun ⟨_, he⟩ => by rw [h] at he; cases he

/-- The formula that is asked for. -/
def Event.formula? : Event → Option String
  | request formula => some formula
  | clear => none

/-- The formulas asked for since the trees were last forgotten. -/
def requestedSinceClear (history : List Event) : List String :=
  (history.rtakeWhile (· ≠ .clear)).filterMap Event.formula?

/-- The distinct formulas read since the trees were last forgotten. -/
def readSinceClear (history : List Event) : Finset String :=
  (requestedSinceClear history).toFinset.filter Readable

/-- The event is a request for a formula that was not read since the trees were last forgotten. -/
def Event.misses (past : List Event) (event : Event) : Bool :=
  event.formula?.any (· ∉ readSinceClear past)

/-- How many requests are there. -/
def requests (history : List Event) : Nat := history.countP (·.formula?.isSome)

/-- How many requests are for a formula that was not read between the last time before them that the
trees were forgotten and them. -/
def missedRequests (history : List Event) : Nat :=
  (List.range history.length).countP fun i => history[i]?.any (Event.misses (history.take i))

section History

variable (history : List Event) (formula : String)

theorem readSinceClear_request : readSinceClear (history ++ [.request formula]) =
    if Readable formula then insert formula (readSinceClear history) else readSinceClear history := by
  have hrequested : requestedSinceClear (history ++ [.request formula]) =
      requestedSinceClear history ++ [formula] := by
    rw [requestedSinceClear, List.rtakeWhile_concat, if_pos (by simp), List.filterMap_append]
    rfl
  rw [readSinceClear, readSinceClear, hrequested, List.toFinset_append, Finset.filter_union,
    Finset.union_comm]
  by_cases h : Readable formula
  · rw [if_pos h]
    simp [Finset.filter_singleton, h]
  · rw [if_neg h]
    simp [Finset.filter_singleton, h]

theorem readSinceClear_clear : readSinceClear (history ++ [.clear]) = ∅ := by
  rw [readSinceClear, requestedSinceClear, List.rtakeWhile_concat, if_neg (by simp)]
  rfl

/-- One event more is counted by what came before it. -/
theorem missedRequests_concat (event : Event) : missedRequests (history ++ [event]) =
    missedRequests history + if event.misses history then 1 else 0 := by
  have hbefore : ∀ i ∈ List.range history.length,
      ((history ++ [event])[i]?.any (Event.misses ((history ++ [event]).take i)) = true ↔
        history[i]?.any (Event.misses (history.take i)) = true) := by
    intro i hi
    rw [List.mem_range] at hi
    rw [List.getElem?_append_left hi, List.take_append_of_le_length hi.le]
  rw [missedRequests, List.length_append, List.length_singleton, List.range_succ,
    List.countP_append, List.countP_congr hbefore, List.countP_singleton,
    List.getElem?_concat_length, List.take_left', missedRequests]
  · rfl
  · rfl

theorem requests_concat (event : Event) : requests (history ++ [event]) =
    requests history + if event.formula?.isSome then 1 else 0 := by
  rw [requests, List.countP_append, List.countP_singleton, requests]

/-- A formula that cannot be read is missed each time that it is asked for, one that can be read only
the first time. -/
theorem missedRequests_requests (formulas : List String) :
    missedRequests (history ++ formulas.map .request) = missedRequests history +
      formulas.countP (¬ Readable ·) +
      (formulas.toFinset.filter Readable \ readSinceClear history).card := by
  induction formulas generalizing history with
  | nil => simp
  | cons formula formulas ih =>
      rw [List.map_cons, List.append_cons, ih, missedRequests_concat, readSinceClear_request,
        List.countP_cons, List.toFinset_cons, Finset.filter_insert]
      by_cases hread : Readable formula
      · rw [if_pos hread, if_pos hread]
        by_cases hpast : formula ∈ readSinceClear history
        · have hmisses : (Event.request formula).misses history = false := by
            simp [Event.misses, Event.formula?, hpast]
          rw [Finset.insert_eq_of_mem hpast, Finset.insert_sdiff_of_mem _ hpast, hmisses]
          simp [hread]
        · have hmisses : (Event.request formula).misses history = true := by
            simp [Event.misses, Event.formula?, hpast]
          -- the formula is new, and no later request for it is missed
          have hnew : (insert formula (formulas.toFinset.filter Readable) \
              readSinceClear history).card =
              (formulas.toFinset.filter Readable \ insert formula (readSinceClear history)).card + 1 := by
            rw [Finset.insert_sdiff_of_notMem _ hpast, Finset.sdiff_insert,
              ← Finset.erase_insert_eq_erase,
              Finset.card_erase_add_one (Finset.mem_insert_self formula _)]
          rw [hnew, hmisses]
          simp only [hread, not_true_eq_false, decide_false, Bool.false_eq_true, if_false, if_true]
          omega
      · have hpast : formula ∉ readSinceClear history := by
          intro h
          exact hread (Finset.mem_filter.mp h).2
        have hmisses : (Event.request formula).misses history = true := by
          simp [Event.misses, Event.formula?, hpast]
        rw [if_neg hread, if_neg hread, hmisses]
        simp only [hread, not_false_eq_true, decide_true, if_true]
        omega

end History

/-! ## Jobs -/

/-- The formulas that computing columns of a row asks for, one after another. -/
def Setting.formulas (s : Setting) (columns : List Column) : List String :=
  columns.flatMap fun c =>
    if c.kind = .formula ∧ !s.skips.formulas then c.formula?.toList else []

/-- The formulas that computing rows asks for: those of one row, for each row. -/
def Setting.formulasOfRows (s : Setting) (rows : List Row) : List String :=
  (List.replicate rows.length (s.formulas s.columns)).flatten

/-- What an operation means to the trees that an engine remembers. -/
def Formula.Operation.events : Operation → List Event
  | .parse formula | .validate formula => [.request formula]
  | .evaluate formula .. | .evaluateOutcome formula .. => [.request formula]
  | .clearCache => [.clear]
  | .evaluateExpr .. | .register .. | .unregister _ | .hasFunction _ => []

/-- What an engine can be used for: an operation of its own, or computing rows. -/
inductive Job where
  | ask (op : Operation)
  | compute (s : Setting) (row : Row)
  | apply (s : Setting) (row : Row)
  | applyAll (s : Setting) (rows : List Row)

namespace Job

/-- What a job means to the trees that an engine remembers. -/
def events : Job → List Event
  | ask op => op.events
  | compute s _ | apply s _ => (s.formulas s.columns).map .request
  | applyAll s rows => (s.formulasOfRows rows).map .request

/-- The engine after a job; none if a computation is abandoned. -/
def perform (engine : Engine) : Job → Except Fault Engine
  | ask op => .ok (engine.step op).2
  | compute s row => (s.compute engine row).map (·.2)
  | apply s row => (s.apply engine row).map (·.2.2)
  | applyAll s rows => (s.applyAll engine rows).map (·.2.2)

/-- The engine after some jobs. -/
def performAll (engine : Engine) (jobs : List Job) : Except Fault Engine :=
  jobs.foldlM perform engine

end Job

/-! ## What an engine counts -/

/-- What the engine remembers and counts is told by what has happened. -/
structure Accounts (remembers : Bool) (history : List Event) (engine : Engine) : Prop where
  remembers_eq : engine.options.remembers = remembers
  mem_cache : ∀ formula,
    formula ∈ engine.cache ↔ remembers = true ∧ formula ∈ readSinceClear history
  parseCount : engine.parseCount =
    if remembers then missedRequests history else requests history

namespace Accounts

variable {remembers : Bool} {history : List Event} {engine : Engine}

theorem new (maxDepth : Nat) : Accounts remembers [] (Engine.new { maxDepth, remembers }) := by
  refine ⟨rfl, ?_, ?_⟩
  · intro formula
    simp [Engine.new, readSinceClear, requestedSinceClear]
  · show 0 = _
    split <;> rfl

/-- A remembering engine remembers one tree for every formula read since the last clearing. -/
theorem cacheSize (h : Accounts remembers history engine) :
    engine.cacheSize = if remembers then (readSinceClear history).card else 0 := by
  have hkeys : engine.cache.keys.toFinset = if remembers then readSinceClear history else ∅ := by
    ext formula
    rw [List.mem_toFinset, Std.ExtTreeMap.mem_keys, h.mem_cache]
    cases remembers <;> simp
  rw [Engine.cacheSize, ← Std.ExtTreeMap.length_keys,
    ← List.toFinset_card_of_nodup Std.ExtTreeMap.nodup_keys, hkeys]
  cases remembers <;> rfl

/-- A request for a formula that is remembered is not counted. -/
theorem request_remembered (h : Accounts remembers history engine) {formula : String}
    (hcached : formula ∈ engine.cache) :
    Accounts remembers (history ++ [.request formula]) engine := by
  obtain ⟨rfl, hpast⟩ := (h.mem_cache formula).mp hcached
  have hread : Readable formula := (Finset.mem_filter.mp hpast).2
  refine ⟨h.remembers_eq, ?_, ?_⟩
  · rw [readSinceClear_request, if_pos hread, Finset.insert_eq_of_mem hpast]
    exact h.mem_cache
  · rw [missedRequests_concat, h.parseCount]
    simp [Event.misses, Event.formula?, hpast]

/-- A formula that is not remembered is read and counted, and remembered if it can be read. -/
theorem request_new (h : Accounts remembers history engine) {formula : String}
    (hcached : remembers = true → formula ∉ engine.cache) :
    Accounts remembers (history ++ [.request formula]) (engine.parseNew formula).2 := by
  have hcount : engine.parseCount + 1 = if remembers = true then
      missedRequests (history ++ [.request formula]) else requests (history ++ [.request formula]) := by
    rw [missedRequests_concat, requests_concat, h.parseCount]
    by_cases hr : remembers = true
    · have hpast : formula ∉ readSinceClear history := by
        intro hpast
        exact hcached hr ((h.mem_cache formula).mpr ⟨hr, hpast⟩)
      simp [hr, Event.misses, Event.formula?, hpast]
    · simp [hr, Event.formula?]
  unfold Engine.parseNew
  split
  · rename_i e he
    have hread : ¬ Readable formula := by
      rintro ⟨e', he'⟩
      rw [he] at he'
      cases he'
    refine ⟨h.remembers_eq, ?_, hcount⟩
    rw [readSinceClear_request, if_neg hread]
    exact h.mem_cache
  · rename_i e he
    have hread : Readable formula := ⟨e, he⟩
    by_cases hr : engine.options.remembers = true
    · rw [if_pos hr]
      refine ⟨h.remembers_eq, ?_, hcount⟩
      intro formula'
      have hr' : remembers = true := h.remembers_eq.symm.trans hr
      show formula' ∈ engine.cache.insert formula e ↔ _
      rw [readSinceClear_request, if_pos hread, Finset.mem_insert, Std.ExtTreeMap.mem_insert,
        h.mem_cache, Std.LawfulEqCmp.compare_eq_iff_eq, hr', eq_comm]
      simp
    · rw [if_neg hr]
      refine ⟨h.remembers_eq, ?_, hcount⟩
      intro formula'
      have hr' : ¬ remembers = true := by rwa [← h.remembers_eq]
      show formula' ∈ engine.cache ↔ _
      rw [h.mem_cache]
      simp [hr']

/-- Asking for a tree. -/
theorem parse (h : Accounts remembers history engine) (formula : String) :
    Accounts remembers (history ++ [.request formula]) (engine.parse formula).2 := by
  unfold Engine.parse
  by_cases hr : engine.options.remembers = true
  · rw [if_pos hr]
    split
    · rename_i he
      exact h.request_remembered (Std.ExtTreeMap.mem_iff_isSome_getElem?.mpr (by rw [he]; rfl))
    · rename_i he
      refine h.request_new fun _ hcached => ?_
      rw [Std.ExtTreeMap.mem_iff_isSome_getElem?, he] at hcached
      cases hcached
  · rw [if_neg hr]
    refine h.request_new fun hremembers => ?_
    exact absurd (h.remembers_eq.trans hremembers) hr

theorem clearCache (h : Accounts remembers history engine) :
    Accounts remembers (history ++ [.clear]) engine.clearCache := by
  refine ⟨h.remembers_eq, ?_, ?_⟩
  · intro formula
    rw [readSinceClear_clear]
    simp [Engine.clearCache]
  · rw [missedRequests_concat, requests_concat]
    exact h.parseCount

/-- Asking the engine for anything. -/
theorem step (h : Accounts remembers history engine) (op : Operation) :
    Accounts remembers (history ++ op.events) (engine.step op).2 := by
  cases op with
  | parse formula => exact h.parse formula
  | validate formula =>
      simp only [Engine.step, Engine.validate_eq, Prod.map_snd]
      exact h.parse formula
  | evaluate formula row columns now =>
      simp only [Engine.step, Engine.evaluate_eq, Prod.map_snd]
      exact h.parse formula
  | evaluateOutcome formula row columns now =>
      simp only [Engine.step, Engine.evaluateOutcome_eq, Engine.evaluate_eq, Prod.map_snd]
      exact h.parse formula
  | clearCache => exact h.clearCache
  | evaluateExpr e row columns now =>
      rw [Operation.events, List.append_nil]
      exact h
  | register name f =>
      rw [Operation.events, List.append_nil]
      exact ⟨h.remembers_eq, h.mem_cache, h.parseCount⟩
  | unregister name =>
      rw [Operation.events, List.append_nil]
      exact ⟨h.remembers_eq, h.mem_cache, h.parseCount⟩
  | hasFunction name =>
      rw [Operation.events, List.append_nil]
      exact h

/-- A run of operations. -/
theorem run (h : Accounts remembers history engine) (ops : List Operation) :
    Accounts remembers (history ++ ops.flatMap Operation.events) (engine.run ops).2 := by
  induction ops generalizing history engine with
  | nil =>
      rw [List.flatMap_nil, List.append_nil]
      exact h
  | cons op ops ih =>
      rw [List.flatMap_cons, ← List.append_assoc]
      exact ih (h.step op)

end Accounts

/-! ## What a computation does to the engine -/

namespace Setting

variable {s : Setting} {row : Row} {c : Column} {engine engine' : Engine}

/-- The formula of a column that is computed is asked for. -/
theorem formula_engine {result : Except ComputationError Value}
    (h : s.formula engine row c = .ok (result, engine')) :
    engine' = (engine.run (c.formula?.toList.map .parse)).2 := by
  cases htext : c.formula? with
  | none =>
      rw [formula, htext] at h
      cases h
      rfl
  | some text =>
      have hsnd : (engine.evaluate text row s.columns s.now).2 = (engine.parse text).2 := by
        rw [Engine.evaluate_eq]
      rw [formula_eq engine row htext] at h
      show engine' = (engine.parse text).2
      rw [← hsnd]
      split at h
      · cases h
        rfl
      · cases h
        rfl
      · cases h

theorem derived_engine {result : Except ComputationError Value}
    (h : s.derived engine row c = .ok (result, engine')) :
    engine' = (engine.run ((if c.kind = .formula then c.formula?.toList else []).map .parse)).2 := by
  unfold derived at h
  by_cases hkind : c.kind = .formula
  · rw [if_pos hkind] at h ⊢
    exact formula_engine h
  · rw [if_neg hkind] at h ⊢
    cases h
    rfl

/-- Computing columns of a row is to the engine as asking for their formulas in turn. -/
theorem computeColumns_engine {columns : List Column} {outcome : Outcome}
    (h : s.computeColumns engine row columns = .ok (outcome, engine')) :
    engine' = (engine.run ((s.formulas columns).map .parse)).2 := by
  induction columns generalizing engine row outcome with
  | nil =>
      cases h
      rfl
  | cons c cs ih =>
      rw [computeColumns] at h
      rw [formulas, List.flatMap_cons, List.map_append, Engine.run_append]
      split at h
      · rename_i hderived
        have hkind : c.kind ≠ .formula := by
          intro hkind
          rw [hkind] at hderived
          cases hderived
        rw [if_neg (not_and_of_not_left _ hkind)]
        exact ih h
      · split at h
        · rename_i hskips
          have hskipped : ¬ (c.kind = .formula ∧ (!s.skips.formulas) = true) := by
            rintro ⟨hkind, hformulas⟩
            rw [Skips.skips, if_pos hkind] at hskips
            rw [hskips] at hformulas
            cases hformulas
          obtain ⟨⟨rest, engine₁⟩, hrest, h⟩ := bind_eq_ok h
          cases h
          rw [if_neg hskipped]
          exact ih hrest
        · rename_i hskips
          have hasked : (c.kind = .formula ∧ (!s.skips.formulas) = true) ↔ c.kind = .formula := by
            rw [and_iff_left_iff_imp]
            intro hkind
            rw [Skips.skips, if_pos hkind, Bool.not_eq_true] at hskips
            rw [hskips]
            rfl
          obtain ⟨⟨result, engine₁⟩, hresult, h⟩ := bind_eq_ok h
          obtain ⟨⟨rest, engine₂⟩, hrest, h⟩ := bind_eq_ok h
          cases h
          rw [if_congr hasked rfl rfl, ← derived_engine hresult]
          exact ih hrest

theorem apply_engine {outcome : Outcome} {row' : Row}
    (h : s.apply engine row = .ok (outcome, row', engine')) :
    engine' = (engine.run ((s.formulas s.columns).map .parse)).2 := by
  obtain ⟨⟨outcome, engine₁⟩, hcompute, h⟩ := bind_eq_ok h
  cases h
  exact computeColumns_engine hcompute

/-- Computing rows asks for the formulas of a row as often as there are rows. -/
theorem applyAll_engine {rows rows' : List Row} {statistics : Statistics}
    (h : s.applyAll engine rows = .ok (statistics, rows', engine')) :
    engine' = (engine.run ((s.formulasOfRows rows).map .parse)).2 := by
  induction rows generalizing engine statistics rows' with
  | nil =>
      cases h
      rfl
  | cons row rows ih =>
      obtain ⟨⟨outcome, row', engine₁⟩, happly, h⟩ := bind_eq_ok h
      obtain ⟨⟨rest, rows', engine₂⟩, hrest, h⟩ := bind_eq_ok h
      cases h
      rw [formulasOfRows, List.length_cons, List.replicate_succ, List.flatten_cons, List.map_append,
        Engine.run_append, ← apply_engine happly]
      exact ih hrest

end Setting

namespace Job

variable {engine engine' : Engine}

/-- A job is to the engine as some operations that mean the same to the trees it remembers. -/
theorem perform_eq_ok {job : Job} (h : job.perform engine = .ok engine') :
    ∃ ops : List Operation, ops.flatMap Operation.events = job.events ∧ engine' = (engine.run ops).2 := by
  have hevents (formulas : List String) :
      (formulas.map Operation.parse).flatMap Operation.events = formulas.map .request := by
    rw [List.flatMap_map]
    exact List.flatMap_pure_eq_map _ formulas
  cases job with
  | ask op =>
      cases h
      exact ⟨[op], List.flatMap_singleton _ op, rfl⟩
  | compute s row =>
      obtain ⟨⟨outcome, engine₁⟩, hcompute, rfl⟩ := map_eq_ok h
      exact ⟨_, hevents _, Setting.computeColumns_engine hcompute⟩
  | apply s row =>
      obtain ⟨⟨outcome, row', engine₁⟩, happly, rfl⟩ := map_eq_ok h
      exact ⟨_, hevents _, Setting.apply_engine happly⟩
  | applyAll s rows =>
      obtain ⟨⟨statistics, rows', engine₁⟩, happly, rfl⟩ := map_eq_ok h
      exact ⟨_, hevents _, Setting.applyAll_engine happly⟩

end Job

namespace Accounts

variable {remembers : Bool} {history : List Event} {engine engine' : Engine}

/-- **One job.** -/
theorem perform (h : Accounts remembers history engine) {job : Job}
    (hjob : job.perform engine = .ok engine') :
    Accounts remembers (history ++ job.events) engine' := by
  obtain ⟨ops, hevents, rfl⟩ := Job.perform_eq_ok hjob
  rw [← hevents]
  exact h.run ops

/-- A run of jobs. -/
theorem performAll (h : Accounts remembers history engine) {jobs : List Job}
    (hjobs : Job.performAll engine jobs = .ok engine') :
    Accounts remembers (history ++ jobs.flatMap Job.events) engine' := by
  induction jobs generalizing history engine with
  | nil =>
      cases hjobs
      rw [List.flatMap_nil, List.append_nil]
      exact h
  | cons job jobs ih =>
      obtain ⟨engine₁, hjob, hjobs⟩ := bind_eq_ok hjobs
      rw [List.flatMap_cons, ← List.append_assoc]
      exact ih (h.perform hjob) hjobs

end Accounts

/-- The formulas of some rows are those of one row as often as there are rows. -/
theorem Setting.formulasOfRows_counts (s : Setting) (rows : List Row) :
    (s.formulasOfRows rows).countP (¬ Readable ·) =
        rows.length * (s.formulas s.columns).countP (¬ Readable ·) ∧
      (s.formulasOfRows rows).toFinset =
        if rows = [] then ∅ else (s.formulas s.columns).toFinset := by
  rw [formulasOfRows]
  constructor
  · rw [List.countP_flatten, List.map_replicate, List.sum_replicate_nat]
  · by_cases hrows : rows = []
    · rw [if_pos hrows, hrows]
      rfl
    · rw [if_neg hrows]
      ext formula
      simp [List.mem_replicate, hrows]

/-- **A formula is read once.** After any jobs a remembering engine holds one tree for every formula
that was read since it last forgot them, and has counted the requests for formulas not read since;
computing rows adds one for every new formula that can be read, and one for each row and formula that
cannot. An engine that does not remember holds none and has counted all requests. -/
theorem formulas_are_read_once (remembers : Bool) (maxDepth : Nat) (jobs : List Job)
    (engine : Engine) (h : Job.performAll (Engine.new { maxDepth, remembers }) jobs = .ok engine) :
    let history := jobs.flatMap Job.events
    (remembers = true →
      engine.cacheSize = (readSinceClear history).card ∧
        engine.parseCount = missedRequests history ∧
        ∀ (s : Setting) (rows : List Row) (engine' : Engine),
          Job.perform engine (.applyAll s rows) = .ok engine' →
            let formulas := s.formulas s.columns
            engine'.parseCount = engine.parseCount + rows.length * formulas.countP (¬ Readable ·) +
              if rows = [] then 0
              else (formulas.toFinset.filter Readable \ readSinceClear history).card) ∧
      (remembers = false → engine.cacheSize = 0 ∧ engine.parseCount = requests history) := by
  intro history
  have haccounts : Accounts remembers history engine := (Accounts.new maxDepth).performAll h
  constructor
  · rintro rfl
    refine ⟨haccounts.cacheSize, haccounts.parseCount, ?_⟩
    intro s rows engine' hrows
    obtain ⟨hcount, hset⟩ := s.formulasOfRows_counts rows
    rw [(haccounts.perform hrows).parseCount, haccounts.parseCount, if_pos rfl, if_pos rfl,
      Job.events, missedRequests_requests, hcount, hset]
    congr 1
    by_cases hnone : rows = []
    · rw [if_pos hnone, if_pos hnone, Finset.filter_empty, Finset.empty_sdiff, Finset.card_empty]
    · rw [if_neg hnone, if_neg hnone]
  · rintro rfl
    exact ⟨haccounts.cacheSize, haccounts.parseCount⟩

/-- A formula that cannot be read, asked for before and after the trees are forgotten, counts twice;
the formulas of two columns count once for two rows, and again after the trees are forgotten. -/
theorem formulas_of_labels_are_read_once :
    let jobs := [.ask (.validate "1 +"), .applyAll labels [Row.empty "r", Row.empty "s"],
      .ask .clearCache, .ask (.parse "prop(\"Upper\")"), .ask (.validate "1 +")]
    ∃ engine, Job.performAll (Engine.new {}) jobs = .ok engine ∧ engine.cacheSize = 1 ∧
      engine.parseCount = 5 := by
  intro jobs
  have hok : (Job.performAll (Engine.new {}) jobs).isOk = true := by decide +kernel
  cases hengine : Job.performAll (Engine.new {}) jobs with
  | error fault =>
      rw [hengine] at hok
      cases hok
  | ok engine =>
      obtain ⟨hsize, hcount, -⟩ := (formulas_are_read_once true 100 jobs engine hengine).1 rfl
      refine ⟨engine, rfl, ?_, ?_⟩
      · rw [hsize]
        decide +kernel
      · rw [hcount]
        decide +kernel

end FormulaTable
