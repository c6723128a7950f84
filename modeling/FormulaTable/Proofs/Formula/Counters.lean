import FormulaTable.Proofs.Formula.CheckedParser
import FormulaTable.Proofs.Formula.Recognition

/-!
# The counters of the parser

No check of the parser ever fails. A run is followed step by step: `Tracks` says what the steps so far
have given and where the counters stand, and each function of the parser keeps the counters if the
functions that it calls do. A function calls others either past a token or, at the same place, in the
order of their ranks; so the calls that are open at once are bounded by the tokens that are left.
-/

namespace FormulaTable.Formula

variable {α β : Type} {stream : TokenStream} {c : Counters}

/-! ## Runs -/

/-- The outcome with the error as it is worded. -/
def worded (r : Except SyntaxError α) : Except ParseError α :=
  r.mapError fun e => ⟨e.cause.message, e.position⟩

theorem worded_bind (r : Except SyntaxError α) (f : α → Except SyntaxError β) :
    worded (r.bind f) = (worded r).bind fun a => worded (f a) := by
  cases r <;> rfl

theorem worded_map (r : Except SyntaxError α) (f : α → β) :
    worded (r.map f) = (worded r).map f := by
  cases r <;> rfl

/-- From the counters `c` on, `m` makes no misstep, and it gives what is `expected`: a result, where
`least` tokens or more have been passed and the depth is `depth`, or an error, where the depth is
`floor` or more. -/
def Tracks (stream : TokenStream) (m : Counting α) (c : Counters)
    (expected : Except ParseError (α × Cursor)) (least depth floor : Nat) : Prop :=
  (∃ a c', m.run.run c = .ok (.ok a, c') ∧ expected = .ok (a, c'.cursor stream) ∧
      c'.Valid stream ∧ least ≤ c'.passed ∧ c'.depth = depth) ∨
    ∃ e c', m.run.run c = .ok (.error e, c') ∧ expected = .error e ∧ c'.Valid stream ∧
      floor ≤ c'.depth

namespace Tracks

variable {m : Counting α} {expected : Except ParseError (α × Cursor)}
  {least least' depth depth' floor floor' : Nat}

theorem pure (a : α) (hc : c.Valid stream) (hleast : least ≤ c.passed) (hdepth : c.depth = depth) :
    Tracks stream (Pure.pure a) c (.ok (a, c.cursor stream)) least depth floor :=
  .inl ⟨a, c, rfl, rfl, hc, hleast, hdepth⟩

theorem throw (e : ParseError) (hc : c.Valid stream) (hfloor : floor ≤ c.depth) :
    Tracks stream (MonadExcept.throw e : Counting α) c (.error e) least depth floor :=
  .inr ⟨e, c, rfl, rfl, hc, hfloor⟩

theorem weaken (h : Tracks stream m c expected least depth floor) (hleast : least' ≤ least)
    (hdepth : depth = depth') (hfloor : floor' ≤ floor) :
    Tracks stream m c expected least' depth' floor' := by
  subst hdepth
  obtain ⟨a, c', hrun, hexpected, hc', hl, hd⟩ | ⟨e, c', hrun, hexpected, hc', hf⟩ := h
  · exact .inl ⟨a, c', hrun, hexpected, hc', Nat.le_trans hleast hl, hd⟩
  · exact .inr ⟨e, c', hrun, hexpected, hc', Nat.le_trans hfloor hf⟩

/-- The rest of a run after a part that succeeds. -/
theorem after {m : Counting α} {f : α → Counting β} {a : α} {c' : Counters}
    {expected : Except ParseError (β × Cursor)} (h : m.run.run c = .ok (.ok a, c'))
    (hf : Tracks stream (f a) c' expected least depth floor) :
    Tracks stream (m >>= f) c expected least depth floor := by
  rw [Tracks, ExceptT.run_bind, run_bind_ok h]
  exact hf

/-- A part that fails ends a run. -/
theorem stop {m : Counting α} {f : α → Counting β} {e : ParseError} {c' : Counters}
    (h : m.run.run c = .ok (.error e, c')) (hc' : c'.Valid stream) (hfloor : floor ≤ c'.depth) :
    Tracks stream (m >>= f) c (.error e) least depth floor := by
  refine .inr ⟨e, c', ?_, rfl, hc', hfloor⟩
  rw [ExceptT.run_bind, run_bind_ok h]
  rfl

/-- One part of a run after another. -/
theorem bind {f : α → Counting β} {g : α × Cursor → Except ParseError (β × Cursor)}
    (hm : Tracks stream m c expected least depth floor)
    (hf : ∀ a c', c'.Valid stream → least ≤ c'.passed → c'.depth = depth →
      Tracks stream (f a) c' (g (a, c'.cursor stream)) least' depth' floor) :
    Tracks stream (m >>= f) c (expected.bind g) least' depth' floor := by
  obtain ⟨a, c', hrun, rfl, hc', hl, hd⟩ | ⟨e, c', hrun, rfl, hc', hfloor⟩ := hm
  · exact .after hrun (hf a c' hc' hl hd)
  · exact .stop hrun hc' hfloor

/-- A step before the rest of a run. -/
theorem step {s : Stepping α} {f : α → Counting β} {a : α} {c' : Counters}
    {expected : Except ParseError (β × Cursor)}
    (h : s.run c = .ok (a, c')) (hf : Tracks stream (f a) c' expected least depth floor) :
    Tracks stream (liftM s >>= f) c expected least depth floor :=
  .after (run_lift_ok h) hf

/-- A token that comes next is passed. -/
theorem consume {f : Entry → Counting β} {k : TokenKind} {expected : Except ParseError (β × Cursor)}
    (hc : c.Valid stream) (h : (c.cursor stream).peek = some k)
    (hf : ∀ c' : Counters, c'.Valid stream → c'.passed = c.passed + 1 → c'.depth = c.depth →
      (c.cursor stream).next = c'.cursor stream →
      Tracks stream (f ((c.cursor stream).entry stream.length)) c' expected least depth floor) :
    Tracks stream (liftM (consume stream.entries) >>= f) c expected least depth floor := by
  have hrun := run_consume hc
  rw [h] at hrun
  exact .step hrun (hf c.next (hc.next h) rfl rfl (c.cursor_next stream).symm)

/-- A symbol that comes next is passed, and any other token is an error. -/
theorem expect {f : Unit → Counting β} {s : Symbol} {context : Context}
    {g : Cursor → Except SyntaxError (β × Cursor)} (hc : c.Valid stream) (hfloor : floor ≤ c.depth)
    (hf : ∀ c' : Counters, c'.Valid stream → c'.passed = c.passed + 1 → c'.depth = c.depth →
      Tracks stream (f ()) c' (worded (g (c'.cursor stream))) least depth floor) :
    Tracks stream (expect stream.entries s context.describe >>= f) c
      (worded (((c.cursor stream).expect stream.length s context).bind g)) least depth floor := by
  rw [Cursor.expect]
  by_cases hs : (c.cursor stream).sees s = true
  · rw [if_pos hs, ← Counters.cursor_next]
    refine .after (run_expect_seen hc hs _) ?_
    exact hf c.next (hc.next (Cursor.peek_of_sees hs)) rfl rfl
  · rw [if_neg hs]
    exact .stop (run_expect_missed hc hs _) hc hfloor

/-- One level deeper, or an error where the depth is the greatest one. -/
theorem enter {f : Unit → Counting β} {g : Cursor → Except SyntaxError (β × Cursor)}
    (hc : c.Valid stream) (hfloor : floor ≤ c.depth)
    (hf : ∀ c' : Counters, c'.Valid stream → c'.passed = c.passed → c'.depth = c.depth + 1 →
      Tracks stream (f ()) c' (worded (g (c'.cursor stream))) least depth floor) :
    Tracks stream (enter stream.entries >>= f) c
      (worded (((c.cursor stream).enter stream.length).bind g)) least depth floor := by
  rw [Cursor.enter]
  by_cases hdepth : maxNesting ≤ c.depth
  · rw [if_pos (show maxNesting ≤ (c.cursor stream).depth from hdepth)]
    exact .stop (run_enter_deepest hc hdepth) hc hfloor
  · rw [if_neg (show ¬ maxNesting ≤ (c.cursor stream).depth from hdepth)]
    refine .after (run_enter hdepth) ?_
    exact hf c.deeper ⟨hc.passed_le, Nat.lt_of_not_le hdepth⟩ rfl rfl

/-- One level back up after a run, also after an error. -/
theorem leaving (h : Tracks stream m c expected least (depth + 1) (floor + 1)) :
    Tracks stream (leaving m) c (expected.map fun (a, d) => (a, d.leave 1)) least depth floor := by
  have hrun {outcome : Except ParseError α} {c' : Counters}
      (hm : m.run.run c = .ok (outcome, c')) (hdepth : 1 ≤ c'.depth) :
      (Formula.leaving m).run.run c = .ok (outcome, c'.back 1) := by
    show (m.run >>= fun outcome => leave 1 >>= fun _ => Pure.pure outcome : Stepping _).run c = _
    rw [run_bind_ok hm, run_bind_ok (run_leave hdepth)]
    rfl
  obtain ⟨a, c', hm, rfl, hc', hl, hd⟩ | ⟨e, c', hm, rfl, hc', hf⟩ := h
  · exact .inl ⟨a, _, hrun hm (by omega), rfl, hc'.back 1, hl, Nat.sub_eq_of_eq_add hd⟩
  · exact .inr ⟨e, _, hrun hm (by omega), rfl, hc'.back 1, Nat.le_sub_of_add_le hf⟩

/-- One level back up after a run, and something made of its result. -/
theorem leaving_map (f : α → β) (h : Tracks stream m c expected least (depth + 1) (floor + 1)) :
    Tracks stream (Formula.leaving m >>= fun a => Pure.pure (f a)) c
      (expected.map fun (a, d) => (f a, d.leave 1)) least depth floor := by
  have hmap : (expected.map fun (a, d) => (f a, d.leave 1)) =
      (expected.map fun (a, d) => (a, d.leave 1)).bind fun (a, d) => .ok (f a, d) := by
    cases expected <;> rfl
  rw [hmap]
  refine h.leaving.bind ?_
  intro a c' hc' hl hd
  exact .pure _ hc' hl hd

end Tracks

/-! ## What the functions read -/

variable {length : Nat} {d : Cursor}

/-- A chain of `or`, or a conditional after one. -/
def readConditional (length : Nat) (d : Cursor) : Except SyntaxError (Expr × Cursor) :=
  (read length (.level (some .or)) d).bind fun (condition, d) =>
    if d.sees .question then
      (read length .expression d.next).bind fun (consequent, d) =>
        (d.expect length .colon .conditional).bind fun d =>
          (read length .expression d).bind fun (alternate, d) =>
            .ok (.conditional condition consequent alternate, d)
    else .ok (condition, d)

/-- The closing parenthesis of a call, and the tree of the call. -/
def readClosing (length : Nat) (name : String) (position : Nat) (args : List Expr) (d : Cursor) :
    Except SyntaxError (Expr × Cursor) :=
  (d.expect length .rightParen (.arguments name)).bind fun d =>
    match callTree name args with
    | .error cause => .error { cause, position }
    | .ok e => .ok (e, d)

/-- The arguments of a call after `args`, and its end. -/
def readArguments (length : Nat) (name : String) (position : Nat) (args : List Expr)
    (d : Cursor) : Except SyntaxError (Expr × Cursor) :=
  if d.sees .comma then
    (read length .list d.next).bind fun (others, d) =>
      readClosing length name position (args ++ others) d
  else readClosing length name position args d

/-- What comes after the opening parenthesis of a call. -/
def readCall (length : Nat) (name : String) (position : Nat) (d : Cursor) :
    Except SyntaxError (Expr × Cursor) :=
  if d.sees .rightParen then readClosing length name position [] d
  else (read length .expression d).bind fun (first, d) =>
    readArguments length name position [first] d

/-- An expression is a conditional one level deeper. -/
theorem read_expression_eq : read length .expression d =
    (d.enter length).bind fun d =>
      (readConditional length d).map fun (e, d) => (e, d.leave 1) := by
  rw [read_expression]
  refine congrArg _ (funext fun d => ?_)
  rw [readConditional, map_bind]
  refine congrArg _ (funext fun (condition, d) => ?_)
  dsimp only
  split
  · rw [map_bind]
    refine congrArg _ (funext fun (consequent, d) => ?_)
    dsimp only
    rw [map_bind]
    refine congrArg _ (funext fun d => ?_)
    rw [map_bind]
    cases read length .expression d <;> rfl
  · rfl

/-- After a comma an argument is read, and then the arguments after it. -/
theorem readArguments_eq {name : String} {position : Nat} {args : List Expr} :
    readArguments length name position args d =
      if d.sees .comma then
        (read length .expression d.next).bind fun (next, d) =>
          readArguments length name position (args ++ [next]) d
      else readClosing length name position args d := by
  rw [readArguments]
  split
  · rw [read_list, bind_bind]
    refine congrArg _ (funext fun (next, d) => ?_)
    dsimp only
    rw [readArguments]
    split
    · rw [bind_map]
      refine congrArg _ (funext fun (others, d) => ?_)
      dsimp only
      rw [List.append_assoc]
      rfl
    · rfl
  · rfl

/-- The arguments of a call and its end. -/
theorem readCall_eq {name : String} {position : Nat} : readCall length name position d =
    (read length .arguments d).bind fun (args, d) => readClosing length name position args d := by
  rw [readCall, read_arguments]
  split
  · rfl
  · rw [read_list, bind_bind]
    refine congrArg _ (funext fun (first, d) => ?_)
    dsimp only
    rw [readArguments]
    split
    · rw [bind_map]
      rfl
    · rfl

/-- An operand; a call is its opening parenthesis and what comes after it. -/
theorem read_operand_eq : read length .operand d =
    match d.peek with
    | none => d.fail length .unexpectedEnd
    | some k =>
      match literal? k with
      | some e => .ok (e, d.next)
      | none =>
        if k = .symbol .leftParen then
          (read length .expression d.next).bind fun (e, d) =>
            (d.expect length .rightParen .parenthesis).bind fun d => .ok (e, d)
        else
          match calledName? k with
          | none => d.fail length (operandCause k)
          | some name =>
            if d.next.sees .leftParen then
              readCall length name (d.position length) d.next.next
            else d.fail length (operandCause k) := by
  rw [read_operand]
  simp only [readCall_eq]
  rfl

/-- What a function of the parser reads, with its error as it is worded. Whoever calls `call` has seen
the opening parenthesis. -/
def Routine.reading (length : Nat) : Routine → Cursor → Except ParseError (Expr × Cursor)
  | expression, d => worded (read length .expression d)
  | conditional, d => worded (readConditional length d)
  | level level?, d => worded (read length (.level level?) d)
  | links chain left chained, d =>
    worded ((parseChain length chain left chained d).map ParsedAny.place)
  | operand, d => worded (read length .operand d)
  | call name position, d =>
    if d.sees .leftParen then worded (readCall length name position d.next)
    else .error ⟨"Expected '(' after function name, got " ++ describe d.peek, d.position length⟩
  | arguments name position args, d => worded (readArguments length name position args d)

/-! ## Functions that keep the counters -/

namespace Routine

/-- The number of levels that a function leaves besides those it enters. -/
def chained : Routine → Nat
  | links _ _ chained => chained
  | _ => 0

/-- The least number of tokens of what a function reads. A chain may have no links. -/
def least : Routine → Nat
  | links _ _ _ => 0
  | _ => 1

/-- The functions that call one another without passing a token, from the last one that is called. -/
def rank : Routine → Nat
  | operand | links _ _ _ | call _ _ | arguments _ _ _ => 0
  | level level? => levelsFrom level? + 1
  | conditional => 8
  | expression => 9

theorem rank_le (r : Routine) : r.rank ≤ 9 := by
  cases r with
  | level level? =>
      have := levelsFrom_le level?
      rw [rank]
      omega
  | _ => simp [rank]

/-- A bound of the calls that are open at once in a function: between two tokens there are at most ten,
one for each rank. -/
def cost (stream : TokenStream) (r : Routine) (c : Counters) : Nat :=
  10 * (stream.tokens.length - c.passed) + r.rank

variable {r r' : Routine} {c' : Counters}

/-- Where more tokens have been passed, every function costs less. -/
theorem cost_lt_of_passed (hc' : c'.Valid stream) (h : c.passed < c'.passed) :
    r'.cost stream c' < r.cost stream c := by
  have hlength := hc'.passed_le
  have hrank := r'.rank_le
  rw [cost, cost]
  omega

/-- At one place the functions are called in the order of their ranks. -/
theorem cost_lt_of_rank (hpassed : c'.passed = c.passed) (h : r'.rank < r.rank) :
    r'.cost stream c' < r.cost stream c := by
  rw [cost, cost, hpassed]
  omega

/-- As `m` the function `r` reads what it should, and keeps the counters: where it succeeds, it has
passed its least number of tokens, and the depth is what it was before, less the links of a chain;
where it fails, the depth is no less than before. -/
def Keeps (stream : TokenStream) (r : Routine) (c : Counters) (m : Counting Expr) : Prop :=
  Tracks stream m c (r.reading stream.length (c.cursor stream)) (c.passed + r.least)
    (c.depth - r.chained) c.depth

/-- As `self` all functions that cost less than `r` keep the counters. -/
def KeepsBelow (stream : TokenStream) (r : Routine) (c : Counters)
    (self : Routine → Counting Expr) : Prop :=
  ∀ (r' : Routine) (c' : Counters), c'.Valid stream → r'.chained ≤ c'.depth →
    r'.cost stream c' < r.cost stream c → r'.Keeps stream c' (self r')

variable {self : Routine → Counting Expr}

theorem KeepsBelow.later (h : KeepsBelow stream r c self) (r' : Routine) (hc' : c'.Valid stream)
    (hpassed : c.passed < c'.passed) (hchained : r'.chained ≤ c'.depth) :
    r'.Keeps stream c' (self r') :=
  h r' c' hc' hchained (cost_lt_of_passed hc' hpassed)

theorem KeepsBelow.lower (h : KeepsBelow stream r c self) (r' : Routine) (hc' : c'.Valid stream)
    (hpassed : c'.passed = c.passed) (hrank : r'.rank < r.rank) (hchained : r'.chained ≤ c'.depth) :
    r'.Keeps stream c' (self r') :=
  h r' c' hc' hchained (cost_lt_of_rank hpassed hrank)

theorem keeps_iff {m : Counting Expr} (hleast : r.least = 1) (hchained : r.chained = 0) :
    r.Keeps stream c m ↔ Tracks stream m c (r.reading stream.length (c.cursor stream))
      (c.passed + 1) c.depth c.depth := by
  rw [Keeps, hleast, hchained, Nat.sub_zero]

/-- The rest of a run after a function that is no loop over a chain. -/
theorem Keeps.bind {m : Counting Expr} {f : Expr → Counting β}
    {g : Expr × Cursor → Except ParseError (β × Cursor)} {least depth floor : Nat}
    (hm : r.Keeps stream c m) (hleast : r.least = 1) (hchained : r.chained = 0)
    (hfloor : floor ≤ c.depth)
    (hf : ∀ e c', c'.Valid stream → c.passed < c'.passed → c'.depth = c.depth →
      Tracks stream (f e) c' (g (e, c'.cursor stream)) least depth floor) :
    Tracks stream (m >>= f) c ((r.reading stream.length (c.cursor stream)).bind g) least depth
      floor :=
  (((keeps_iff hleast hchained).mp hm).weaken (Nat.le_refl _) rfl hfloor).bind hf

theorem keeps_expression (h : KeepsBelow stream expression c self) (hc : c.Valid stream) :
    expression.Keeps stream c (expression.body stream.entries self) := by
  rw [keeps_iff rfl rfl, reading, read_expression_eq, body]
  refine .enter hc (Nat.le_refl _) ?_
  intro c₁ hc₁ hp₁ hd₁
  rw [worded_map]
  have hinner := h.lower conditional hc₁ hp₁ (Nat.lt_succ_self _) (Nat.zero_le _)
  rw [keeps_iff rfl rfl, hp₁, hd₁] at hinner
  exact .leaving hinner

theorem keeps_conditional (h : KeepsBelow stream conditional c self) (hc : c.Valid stream) :
    conditional.Keeps stream c (conditional.body stream.entries self) := by
  rw [keeps_iff rfl rfl, reading, readConditional, body, worded_bind]
  have hcondition := h.lower (level (some .or)) hc rfl (Nat.lt_succ_self _) (Nat.zero_le _)
  refine hcondition.bind rfl rfl (Nat.le_refl _) ?_
  intro condition c₁ hc₁ hp₁ hd₁
  refine .step (run_sees hc₁ _) ?_
  dsimp only
  split
  · next question =>
    refine .consume hc₁ (Cursor.peek_of_sees question) ?_
    intro c₂ hc₂ hp₂ hd₂ hnext
    rw [hnext, worded_bind]
    have hconsequent := h.later expression hc₂ (by omega) (Nat.zero_le _)
    refine hconsequent.bind rfl rfl (by omega) ?_
    intro consequent c₃ hc₃ hp₃ hd₃
    refine .expect hc₃ (by omega) ?_
    intro c₄ hc₄ hp₄ hd₄
    rw [worded_bind]
    have halternate := h.later expression hc₄ (by omega) (Nat.zero_le _)
    refine halternate.bind rfl rfl (by omega) ?_
    intro alternate c₅ hc₅ hp₅ hd₅
    exact .pure _ hc₅ (by omega) (by omega)
  · exact .pure _ hc₁ hp₁ hd₁

theorem keeps_level {chain : Level} (h : KeepsBelow stream (level (some chain)) c self)
    (hc : c.Valid stream) :
    (level (some chain)).Keeps stream c ((level (some chain)).body stream.entries self) := by
  rw [keeps_iff rfl rfl, reading, read_level, body, worded_bind]
  have hfirst := h.lower (level chain.tighter?) hc rfl
    (Nat.succ_lt_succ (levelsFrom_tighter? chain)) (Nat.zero_le _)
  refine hfirst.bind rfl rfl (Nat.le_refl _) ?_
  intro first c₁ hc₁ hp₁ hd₁
  have hlinks := h.later (links chain first 0) hc₁ hp₁ (Nat.zero_le _)
  exact hlinks.weaken hp₁ hd₁ (Nat.le_of_eq hd₁.symm)

theorem keeps_links {chain : Level} {left : Expr} {chained : Nat}
    (h : KeepsBelow stream (links chain left chained) c self) (hc : c.Valid stream)
    (hchained : chained ≤ c.depth) : (links chain left chained).Keeps stream c
      ((links chain left chained).body stream.entries self) := by
  show Tracks stream _ c _ c.passed (c.depth - chained) c.depth
  rw [reading, parseChain_place, body]
  refine .step (run_look_zero hc) ?_
  rw [show chain.operatorOf? ((c.cursor stream).entry stream.length) =
    (c.cursor stream).operator? chain from rfl]
  cases operator : (c.cursor stream).operator? chain with
  | none =>
      refine .step (run_leave hchained) ?_
      exact .pure left (hc.back chained) (Nat.le_refl _) rfl
  | some op =>
      obtain ⟨k, hk⟩ := Cursor.peek_of_operator? operator
      dsimp only
      refine .consume hc hk ?_
      intro c₁ hc₁ hp₁ hd₁ hnext
      rw [hnext]
      refine .enter hc₁ (by omega) ?_
      intro c₂ hc₂ hp₂ hd₂
      rw [worded_bind]
      have hright := h.later (level chain.tighter?) hc₂ (by omega) (Nat.zero_le _)
      refine hright.bind rfl rfl (by omega) ?_
      intro right c₃ hc₃ hp₃ hd₃
      -- the level of this link is left with those of the links before it, where the chain ends
      have hothers := h.later (links chain (.binary op left right) (chained + 1)) hc₃ (by omega)
        (show chained + 1 ≤ _ by omega)
      refine hothers.weaken ?_ ?_ ?_
      · show c.passed ≤ c₃.passed + 0
        omega
      · show c₃.depth - (chained + 1) = c.depth - chained
        omega
      · omega

theorem keeps_unary (h : KeepsBelow stream (level none) c self) (hc : c.Valid stream) :
    (level none).Keeps stream c ((level none).body stream.entries self) := by
  rw [keeps_iff rfl rfl, reading, read_unary, body]
  refine .step (run_signNext hc) ?_
  cases operator : (c.cursor stream).unary? with
  | none =>
      have hinner := h.lower operand hc rfl (Nat.lt_succ_self _) (Nat.zero_le _)
      exact (keeps_iff rfl rfl).mp hinner
  | some op =>
      obtain ⟨k, hk⟩ := Cursor.peek_of_unary? operator
      dsimp only
      refine .consume hc hk ?_
      intro c₁ hc₁ hp₁ hd₁ hnext
      rw [hnext]
      refine .enter hc₁ (by omega) ?_
      intro c₂ hc₂ hp₂ hd₂
      have hinner := h.later (level none) hc₂ (by omega) (Nat.zero_le _)
      rw [keeps_iff rfl rfl, hd₂] at hinner
      have hback := hinner.leaving_map (Expr.unary op)
      rw [worded_map]
      exact hback.weaken (by omega) hd₁ (Nat.le_of_eq hd₁.symm)

theorem keeps_operand (h : KeepsBelow stream operand c self) (hc : c.Valid stream) :
    operand.Keeps stream c (operand.body stream.entries self) := by
  rw [keeps_iff rfl rfl, reading, read_operand_eq, body]
  cases next : (c.cursor stream).peek with
  | none =>
      -- the end is looked at like a token, but not passed
      have hconsume := run_consume hc
      rw [next] at hconsume
      refine .step hconsume ?_
      dsimp only [Cursor.entry]
      rw [next]
      exact .throw _ hc (Nat.le_refl _)
  | some k =>
      refine .consume hc next ?_
      intro c₁ hc₁ hp₁ hd₁ hnext
      dsimp only [Cursor.entry]
      rw [next, hnext]
      dsimp only
      cases literal? k with
      | some e => exact .pure e hc₁ (by omega) (by omega)
      | none =>
          dsimp only
          split
          · rw [worded_bind]
            have hinner := h.later expression hc₁ (by omega) (Nat.zero_le _)
            refine hinner.bind rfl rfl (by omega) ?_
            intro e c₂ hc₂ hp₂ hd₂
            refine .expect hc₂ (by omega) ?_
            intro c₃ hc₃ hp₃ hd₃
            exact .pure e hc₃ (by omega) (by omega)
          · cases calledName? k with
            | none => exact .throw _ hc₁ (by omega)
            | some name =>
                refine .step (run_sees hc₁ _) ?_
                dsimp only
                split
                · next opened =>
                  have hcall := h.later (call name ((c.cursor stream).position stream.length))
                    hc₁ (by omega) (Nat.zero_le _)
                  rw [keeps_iff rfl rfl, reading, if_pos opened] at hcall
                  exact hcall.weaken (by omega) hd₁ (by omega)
                · exact .throw _ hc₁ (by omega)

theorem tracks_closeCall (hc : c.Valid stream) (name : String) (position : Nat)
    (args : List Expr) : Tracks stream (closeCall stream.entries name position args) c
      (worded (readClosing stream.length name position args (c.cursor stream)))
      (c.passed + 1) c.depth c.depth := by
  rw [closeCall, readClosing]
  refine .expect hc (Nat.le_refl _) ?_
  intro c₁ hc₁ hp₁ hd₁
  cases callTree name args with
  | error cause => exact .throw _ hc₁ (by omega)
  | ok e => exact .pure e hc₁ (by omega) hd₁

theorem keeps_call {name : String} {position : Nat}
    (h : KeepsBelow stream (call name position) c self) (hc : c.Valid stream) :
    (call name position).Keeps stream c ((call name position).body stream.entries self) := by
  rw [keeps_iff rfl rfl, reading, body]
  by_cases opened : (c.cursor stream).sees .leftParen = true
  · rw [if_pos opened, readCall]
    refine .after (run_expect_seen hc opened _) ?_
    have hc₁ := hc.next (Cursor.peek_of_sees opened)
    refine .step (run_sees hc₁ _) ?_
    rw [← Counters.cursor_next]
    dsimp only
    split
    · exact (tracks_closeCall hc₁ name position []).weaken (Nat.le_succ _) rfl (Nat.le_refl _)
    · rw [worded_bind]
      have hfirst := h.later expression hc₁ (Nat.lt_succ_self _) (Nat.zero_le _)
      refine hfirst.bind rfl rfl (Nat.le_refl _) ?_
      intro e c₂ hc₂ hp₂ hd₂
      replace hp₂ : c.passed + 1 < c₂.passed := hp₂
      replace hd₂ : c₂.depth = c.depth := hd₂
      have hothers := h.later (arguments name position [e]) hc₂ (by omega) (Nat.zero_le _)
      rw [keeps_iff rfl rfl] at hothers
      exact hothers.weaken (by omega) hd₂ (Nat.le_of_eq hd₂.symm)
  · rw [if_neg opened]
    exact .stop (run_expect_missed hc opened _) hc (Nat.le_refl _)

theorem keeps_arguments {name : String} {position : Nat} {args : List Expr}
    (h : KeepsBelow stream (arguments name position args) c self) (hc : c.Valid stream) :
    (arguments name position args).Keeps stream c
      ((arguments name position args).body stream.entries self) := by
  rw [keeps_iff rfl rfl, reading, readArguments_eq, body]
  refine .step (run_sees hc _) ?_
  dsimp only
  split
  · next comma =>
    refine .consume hc (Cursor.peek_of_sees comma) ?_
    intro c₁ hc₁ hp₁ hd₁ hnext
    rw [hnext, worded_bind]
    have hargument := h.later expression hc₁ (by omega) (Nat.zero_le _)
    refine hargument.bind rfl rfl (by omega) ?_
    intro e c₂ hc₂ hp₂ hd₂
    have hothers := h.later (arguments name position (args ++ [e])) hc₂ (by omega) (Nat.zero_le _)
    rw [keeps_iff rfl rfl] at hothers
    exact hothers.weaken (by omega) (by omega) (by omega)
  · exact tracks_closeCall hc name position args

/-- One call keeps the counters if the calls in it do. -/
theorem keeps_body (h : KeepsBelow stream r c self) (hc : c.Valid stream)
    (hchained : r.chained ≤ c.depth) : r.Keeps stream c (r.body stream.entries self) := by
  cases r with
  | expression => exact keeps_expression h hc
  | conditional => exact keeps_conditional h hc
  | level level? =>
      cases level? with
      | none => exact keeps_unary h hc
      | some chain => exact keeps_level h hc
  | links chain left chained => exact keeps_links h hc hchained
  | operand => exact keeps_operand h hc
  | call name position => exact keeps_call h hc
  | arguments name position args => exact keeps_arguments h hc

/-- Every function keeps the counters if it may have as many calls open as it costs. -/
theorem keeps_run {calls : Nat} (hc : c.Valid stream) (hchained : r.chained ≤ c.depth)
    (hcalls : r.cost stream c < calls) : r.Keeps stream c (r.run stream.entries calls) := by
  -- on the calls that may still be opened, each of which costs less than the one that opens it
  induction calls generalizing r c with
  | zero => exact absurd hcalls (Nat.not_lt_zero _)
  | succ calls ih =>
      refine keeps_body ?_ hc hchained
      intro r' c' hc' hchained' hcost
      exact ih hc' hchained' (Nat.lt_of_lt_of_le hcost (Nat.le_of_lt_succ hcalls))

end Routine

/-- **The parser terminates and keeps its counters.** Whichever function of the parser is called, and
wherever it starts, it makes no misstep if it may have as many calls open as it costs: every token that
it looks up is in the list, it does not pass the end, and the depth stays in its bounds, also where it
ends with an error. What it gives is what is read from the tokens that are left. Where it succeeds, it
has passed a token, and the depth is what it was before; the loop over a chain may pass none, and leaves
the levels of the links that have been read. -/
theorem parser_keeps_counters (stream : TokenStream) (r : Routine) (c : Counters) (calls : Nat)
    (hpassed : c.passed ≤ stream.tokens.length) (hdepth : c.depth ≤ maxNesting)
    (hchained : r.chained ≤ c.depth) (hcalls : r.cost stream c < calls) :
    ∃ outcome c', (r.run stream.entries calls).run.run c = .ok (outcome, c') ∧
      c'.passed ≤ stream.tokens.length ∧ c'.depth ≤ maxNesting ∧
      (∀ e, outcome = .ok e →
        r.reading stream.length (c.cursor stream) = .ok (e, c'.cursor stream) ∧
          c.passed + r.least ≤ c'.passed ∧ c'.depth + r.chained = c.depth) ∧
      ∀ e, outcome = .error e →
        r.reading stream.length (c.cursor stream) = .error e ∧ c.depth ≤ c'.depth := by
  obtain ⟨e, c', hrun, hreading, hc', hleast, hd⟩ | ⟨e, c', hrun, hreading, hc', hfloor⟩ :=
    Routine.keeps_run ⟨hpassed, hdepth⟩ hchained hcalls
  · refine ⟨.ok e, c', hrun, hc'.passed_le, hc'.depth_le, ?_, nofun⟩
    rintro _ ⟨⟩
    exact ⟨hreading, hleast, by omega⟩
  · refine ⟨.error e, c', hrun, hc'.passed_le, hc'.depth_le, nofun, ?_⟩
    rintro _ ⟨⟩
    exact ⟨hreading, hfloor⟩

/-- The loop over a sum after its first operand, with two links read before it: it passes two tokens,
and leaves three levels, one of which it has entered. -/
theorem links_keep_counters :
    ((Routine.links .sum (.string "a") 2).run
        (TokenStream.entries ⟨[⟨.string "a", 0⟩, ⟨.symbol .plus, 4⟩, ⟨.string "b", 6⟩], 9⟩)
        21).run.run ⟨1, 3⟩ =
        .ok (.ok (.binary .add (.string "a") (.string "b")), ⟨3, 1⟩) ∧
      (Routine.links .sum (.string "a") 2).reading 9
        ⟨[⟨.symbol .plus, 4⟩, ⟨.string "b", 6⟩], 3⟩ =
        .ok (.binary .add (.string "a") (.string "b"), ⟨[], 1⟩) := by
  have hrun : ((Routine.links .sum (.string "a") 2).run
      (TokenStream.entries ⟨[⟨.string "a", 0⟩, ⟨.symbol .plus, 4⟩, ⟨.string "b", 6⟩], 9⟩)
      21).run.run ⟨1, 3⟩ =
      .ok (.ok (.binary .add (.string "a") (.string "b")), ⟨3, 1⟩) := rfl
  obtain ⟨outcome, c', hkept, -, -, hok, -⟩ := parser_keeps_counters
    ⟨[⟨.string "a", 0⟩, ⟨.symbol .plus, 4⟩, ⟨.string "b", 6⟩], 9⟩ (.links .sum (.string "a") 2)
    ⟨1, 3⟩ 21 (by decide) (by decide) (by decide) (by decide)
  rw [hrun] at hkept
  cases hkept
  exact ⟨hrun, (hok _ rfl).1⟩

/-! ## Formulas -/

/-- The parser of a whole formula: an expression, after which nothing is left. -/
def parseEntries (entries : List Entry) (calls : Nat) : Counting Expr := do
  let e ← Routine.expression.run entries calls
  let entry ← look entries 0
  match entry.kind with
  | none => return e
  | some kind => throw ⟨(SyntaxCause.afterExpression kind).message, entry.position⟩

/-- From the start of a formula the parser makes no misstep and gives the tree of the formula, or its
error. The calls that are open at once are at most ten for each token, and ten more. -/
theorem exists_run_parseEntries (stream : TokenStream) {calls : Nat}
    (hcalls : 10 * stream.tokens.length + 9 < calls) :
    ∃ c', (parseEntries stream.entries calls).run.run ⟨0, 0⟩ =
      .ok (worded (parseTokens stream), c') := by
  have hstart : (⟨0, 0⟩ : Counters).Valid stream := ⟨Nat.zero_le _, Nat.zero_le _⟩
  have hread : worded (parseTokens stream) =
      (Routine.expression.reading stream.length (Counters.cursor stream ⟨0, 0⟩)).bind fun (e, d) =>
        worded (match d.peek with
          | none => .ok e
          | some k => d.fail stream.length (.afterExpression k)) := by
    rw [parseTokens_eq, worded_bind]
    rfl
  rw [hread]
  obtain ⟨e, c', hrun, hreading, hc', -⟩ | ⟨e, c', hrun, hreading, -⟩ :=
    Routine.keeps_run (r := .expression) hstart (Nat.zero_le _) hcalls
  · refine ⟨c', ?_⟩
    rw [hreading, parseEntries, ExceptT.run_bind, run_bind_ok hrun]
    dsimp only [Except.bind]
    rw [ExceptT.run_bind, run_bind_ok (run_lift_ok (run_look_zero hc'))]
    dsimp only [Cursor.entry]
    cases (c'.cursor stream).peek <;> rfl
  · refine ⟨c', ?_⟩
    rw [hreading, parseEntries, ExceptT.run_bind, run_bind_ok hrun]
    rfl

end FormulaTable.Formula
