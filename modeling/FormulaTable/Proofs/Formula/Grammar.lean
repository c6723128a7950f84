import FormulaTable.Formula.Parser

/-!
# The grammar of formulas

The rules by which the kinds of tokens make up a formula and its tree. An expression is a chain of
`or`, or a conditional after one. A chain of a level is made of operands of the next tighter level
with operators between them and groups to the left; the operands of products are signed operands.

The grammar has one tree for every list of tokens: `Derivation.decides` compares two derivations of
one phrase from the left, and `Follows` says which tokens cannot go on with a phrase.
-/

namespace FormulaTable.Formula

/-! ## Words of the grammar -/

/-- The symbol `s` stands for the operator `op` of a level. -/
inductive Operator : Level → Symbol → BinaryOp → Prop where
  | or : Operator .or .or .or
  | and : Operator .and .and .and
  | equal : Operator .equality .equal .equal
  | notEqual : Operator .equality .notEqual .notEqual
  | greater : Operator .order .greater .greater
  | greaterEqual : Operator .order .greaterEqual .greaterEqual
  | less : Operator .order .less .less
  | lessEqual : Operator .order .lessEqual .lessEqual
  | add : Operator .sum .plus .add
  | subtract : Operator .sum .minus .subtract
  | multiply : Operator .product .star .multiply
  | divide : Operator .product .slash .divide
  | modulo : Operator .product .percent .modulo

/-- The symbol `s` before an operand stands for the operator `op`. -/
inductive Sign : Symbol → UnaryOp → Prop where
  | not : Sign .not .not
  | minus : Sign .minus .negate
  | plus : Sign .plus .plus

/-- A token that is an operand by itself, and its tree. -/
inductive Literal : TokenKind → Expr → Prop where
  | number (x : Float) : Literal (.number x) (.number x)
  | string (s : String) : Literal (.string s) (.string s)
  | boolean (b : Bool) : Literal (.boolean b) (.boolean b)

/-- A token before an opening parenthesis, and the name that it calls. -/
inductive CallName : TokenKind → String → Prop where
  | identifier (name : String) : CallName (.identifier name) name
  | and : CallName (.symbol .and) "and"
  | or : CallName (.symbol .or) "or"
  | not : CallName (.symbol .not) "not"

/-- A symbol stands for one operator of one level. -/
theorem Operator.unique {l l' : Level} {s : Symbol} {op op' : BinaryOp} (h : Operator l s op)
    (h' : Operator l' s op') : l = l' ∧ op = op' := by
  cases h <;> cases h' <;> exact ⟨rfl, rfl⟩

/-- A symbol is one sign. -/
theorem Sign.unique {s : Symbol} {op op' : UnaryOp} (h : Sign s op) (h' : Sign s op') :
    op = op' := by
  cases h <;> cases h' <;> rfl

/-- A token is one literal. -/
theorem Literal.unique {k : TokenKind} {e e' : Expr} (h : Literal k e) (h' : Literal k e') :
    e = e' := by
  cases h <;> cases h' <;> rfl

/-- A token calls one name. -/
theorem CallName.unique {k : TokenKind} {name name' : String} (h : CallName k name)
    (h' : CallName k name') : name = name' := by
  cases h <;> cases h' <;> rfl

/-- No literal calls a name. -/
theorem Literal.not_callName {k : TokenKind} {e : Expr} {name : String} (h : Literal k e) :
    ¬ CallName k name := by
  intro h'
  cases h <;> cases h'

/-- What holds after the last level, and of a level if it holds of the next tighter one, holds of
every level. -/
theorem levels_induction {P : Option Level → Prop} (last : P none)
    (looser : ∀ level : Level, P level.tighter? → P (some level)) (level? : Option Level) :
    P level? := by
  have product : P (some .product) := looser .product last
  have sum : P (some .sum) := looser .sum product
  have order : P (some .order) := looser .order sum
  have equality : P (some .equality) := looser .equality order
  have and : P (some .and) := looser .and equality
  cases level? with
  | none => exact last
  | some level =>
      cases level with
      | or => exact looser .or and
      | and => exact and
      | equality => exact equality
      | order => exact order
      | sum => exact sum
      | product => exact product

/-! ## Phrases -/

/-- The parts of a formula. -/
inductive Phrase where
  /-- An expression. -/
  | expression
  /-- A chain of a level, or signs and an operand. -/
  | level (level? : Option Level)
  /-- The links of a chain after `left`. -/
  | links (level : Level) (left : Expr)
  /-- An operand without signs. -/
  | operand
  /-- What stands between the parentheses of a call. -/
  | arguments
  /-- Expressions with commas between them. -/
  | list

/-- What a phrase means: the arguments of a call are several trees. -/
@[reducible] def Phrase.Meaning : Phrase → Type
  | expression | level _ | links _ _ | operand => Expr
  | arguments | list => List Expr

/-- The rules of the grammar. A call of `prop` is a property, and its one argument is a string. -/
inductive Derivation : (p : Phrase) → List TokenKind → p.Meaning → Type where
  | plain {ts : List TokenKind} {e : Expr} (condition : Derivation (.level (some .or)) ts e) :
      Derivation .expression ts e
  | conditional {ts us vs : List TokenKind} {c a b : Expr}
      (condition : Derivation (.level (some .or)) ts c)
      (consequent : Derivation .expression us a) (alternate : Derivation .expression vs b) :
      Derivation .expression (ts ++ .symbol .question :: (us ++ .symbol .colon :: vs))
        (.conditional c a b)
  | chain {level : Level} {ts us : List TokenKind} {left e : Expr}
      (first : Derivation (.level level.tighter?) ts left)
      (others : Derivation (.links level left) us e) :
      Derivation (.level (some level)) (ts ++ us) e
  | done {level : Level} {left : Expr} : Derivation (.links level left) [] left
  | link {level : Level} {s : Symbol} {op : BinaryOp} {left right e : Expr}
      {ts us : List TokenKind} (operator : Operator level s op)
      (next : Derivation (.level level.tighter?) ts right)
      (others : Derivation (.links level (.binary op left right)) us e) :
      Derivation (.links level left) (.symbol s :: (ts ++ us)) e
  | sign {s : Symbol} {op : UnaryOp} {ts : List TokenKind} {e : Expr} (sign : Sign s op)
      (noCall : s = .not → ts.head? ≠ some (.symbol .leftParen))
      (inner : Derivation (.level none) ts e) :
      Derivation (.level none) (.symbol s :: ts) (.unary op e)
  | unsigned {ts : List TokenKind} {e : Expr} (inner : Derivation .operand ts e) :
      Derivation (.level none) ts e
  | literal {k : TokenKind} {e : Expr} (literal : Literal k e) : Derivation .operand [k] e
  | parenthesis {ts : List TokenKind} {e : Expr} (inner : Derivation .expression ts e) :
      Derivation .operand (.symbol .leftParen :: (ts ++ [.symbol .rightParen])) e
  | call {k : TokenKind} {name : String} {ts : List TokenKind} {args : List Expr}
      (called : CallName k name) (ordinary : Text.fold name ≠ "prop")
      (inner : Derivation .arguments ts args) :
      Derivation .operand (k :: .symbol .leftParen :: (ts ++ [.symbol .rightParen]))
        (.call (Text.fold name) args)
  | property {k : TokenKind} {name column : String} {ts : List TokenKind}
      (called : CallName k name) (prop : Text.fold name = "prop")
      (inner : Derivation .arguments ts [.string column]) :
      Derivation .operand (k :: .symbol .leftParen :: (ts ++ [.symbol .rightParen]))
        (.property column)
  | noArguments : Derivation .arguments [] []
  | someArguments {ts : List TokenKind} {args : List Expr} (inner : Derivation .list ts args) :
      Derivation .arguments ts args
  | last {ts : List TokenKind} {e : Expr} (first : Derivation .expression ts e) :
      Derivation .list ts [e]
  | more {ts us : List TokenKind} {e : Expr} {es : List Expr}
      (first : Derivation .expression ts e) (others : Derivation .list us es) :
      Derivation .list (ts ++ .symbol .comma :: us) (e :: es)

/-- The tokens of these kinds are a formula with the tree `e`. -/
def Derives (kinds : List TokenKind) (e : Expr) : Prop :=
  Nonempty (Derivation .expression kinds e)

/-! ## First tokens -/

/-- A phrase that has tokens does not start with a closing parenthesis. Links and arguments may have
none. -/
def Phrase.Opens : Phrase → List TokenKind → Prop
  | expression, ts | level _, ts | operand, ts | list, ts =>
    ∃ k us, ts = k :: us ∧ k ≠ .symbol .rightParen
  | links _ _, _ | arguments, _ => True

/-- What follows the tokens of a phrase does not change how they start. -/
theorem Phrase.opens_append {ts us : List TokenKind}
    (h : ∃ k vs, ts = k :: vs ∧ k ≠ .symbol .rightParen) :
    ∃ k vs, ts ++ us = k :: vs ∧ k ≠ .symbol .rightParen := by
  obtain ⟨k, vs, rfl, hk⟩ := h
  exact ⟨k, vs ++ us, rfl, hk⟩

/-- The tokens of a derivation start as its phrase does. -/
theorem Derivation.opens {p : Phrase} {ts : List TokenKind} {r : p.Meaning}
    (d : Derivation p ts r) : p.Opens ts := by
  -- the first token of a phrase is the first token of its first part
  induction d with
  | plain _ ih => exact ih
  | conditional _ _ _ ih => exact Phrase.opens_append ih
  | @chain level _ _ _ _ _ _ ih =>
      rw [Phrase.Opens] at ih ⊢
      exact Phrase.opens_append ih
  | done => trivial
  | link => trivial
  | sign sign =>
      refine ⟨_, _, rfl, ?_⟩
      cases sign <;> simp
  | unsigned _ ih => exact ih
  | literal literal =>
      refine ⟨_, _, rfl, ?_⟩
      cases literal <;> simp
  | parenthesis => exact ⟨_, _, rfl, by simp⟩
  | call called =>
      refine ⟨_, _, rfl, ?_⟩
      cases called <;> simp
  | property called =>
      refine ⟨_, _, rfl, ?_⟩
      cases called <;> simp
  | noArguments => trivial
  | someArguments => trivial
  | last _ ih => exact ih
  | more _ _ ih => exact Phrase.opens_append ih

/-! ## What may follow -/

/-- No operator of the level, nor of a tighter one, comes first. -/
def Ends (level? : Option Level) (xs : List TokenKind) : Prop :=
  ∀ (s : Symbol) (l : Level) (op : BinaryOp), xs.head? = some (.symbol s) → Operator l s op →
    levelsFrom level? < levelsFrom (some l)

/-- The tokens `xs` cannot go on with a phrase. -/
def Follows : Phrase → List TokenKind → Prop
  | .expression, xs => Ends (some .or) xs ∧ xs.head? ≠ some (.symbol .question)
  | .level level?, xs => Ends level? xs
  | .links level _, xs => Ends (some level) xs
  | .operand, _ => True
  | .arguments, xs | .list, xs => xs.head? = some (.symbol .rightParen)

/-- What ends a chain ends its operands. -/
theorem Ends.tighter {level : Level} {xs : List TokenKind} (h : Ends (some level) xs) :
    Ends level.tighter? xs := by
  intro s l op hs hop
  exact Nat.lt_trans (levelsFrom_tighter? level) (h s l op hs hop)

/-- An operator of a chain ends the operand before it. -/
theorem Operator.ends {level : Level} {s : Symbol} {op : BinaryOp} (h : Operator level s op)
    (xs : List TokenKind) : Ends level.tighter? (.symbol s :: xs) := by
  intro s' l op' hs hop
  cases hs
  obtain ⟨rfl, -⟩ := h.unique hop
  exact levelsFrom_tighter? level

/-- What is not an operator ends every chain. -/
theorem ends_of_not_operator {level? : Option Level} {xs : List TokenKind} {s : Symbol}
    (hs : xs.head? = some (.symbol s)) (h : ∀ l op, ¬ Operator l s op) : Ends level? xs := by
  intro s' l op hs' hop
  rw [hs] at hs'
  cases hs'
  exact absurd hop (h l op)

theorem not_operator_question (l : Level) (op : BinaryOp) : ¬ Operator l .question op := nofun

theorem not_operator_colon (l : Level) (op : BinaryOp) : ¬ Operator l .colon op := nofun

theorem not_operator_comma (l : Level) (op : BinaryOp) : ¬ Operator l .comma op := nofun

theorem not_operator_rightParen (l : Level) (op : BinaryOp) : ¬ Operator l .rightParen op := nofun

/-- The end of the formula follows an expression. -/
theorem follows_expression_nil : Follows .expression [] := by
  refine ⟨?_, nofun⟩
  intro s l op hs
  cases hs

/-- A symbol other than an operator and the question mark follows an expression. -/
theorem follows_expression {s : Symbol} {xs : List TokenKind}
    (hs : xs.head? = some (.symbol s)) (h : ∀ l op, ¬ Operator l s op) (hq : s ≠ .question) :
    Follows .expression xs := by
  refine ⟨ends_of_not_operator hs h, ?_⟩
  rw [hs]
  simpa using hq

/-- What follows a chain follows its first operand, whether the chain has links or not. -/
theorem Derivation.ends_first {level : Level} {left e : Expr} {ts xs : List TokenKind}
    (d : Derivation (.links level left) ts e) (h : Ends (some level) xs) :
    Ends level.tighter? (ts ++ xs) := by
  cases d with
  | done => exact h.tighter
  | link operator => exact operator.ends _

/-! ## One tree -/

/-- An operand does not start with a sign: after `not` it has a parenthesis, and the sign has
none. -/
theorem Derivation.not_sign {us xs ys : List TokenKind} {e : Expr} {s : Symbol} {op : UnaryOp}
    (d : Derivation .operand us e) (sign : Sign s op)
    (noCall : s = .not → xs.head? ≠ some (.symbol .leftParen)) : .symbol s :: xs ≠ us ++ ys := by
  intro h
  have hcalled {k : TokenKind} {name : String} {zs : List TokenKind} (called : CallName k name)
      (h : .symbol s :: xs = k :: .symbol .leftParen :: zs) : False := by
    obtain ⟨rfl, rfl⟩ := List.cons_eq_cons.mp h
    cases sign <;> cases called
    exact noCall rfl rfl
  cases d with
  | literal literal =>
      obtain ⟨hk, -⟩ := List.cons_eq_cons.mp h
      subst hk
      cases literal
  | parenthesis inner =>
      obtain ⟨hk, -⟩ := List.cons_eq_cons.mp h
      cases hk
      cases sign
  | call called => exact hcalled called h
  | property called => exact hcalled called h

/-- The token after a sign is the first of its operand. -/
theorem Derivation.head?_append {ts : List TokenKind} {e : Expr} (d : Derivation (.level none) ts e)
    (xs : List TokenKind) : (ts ++ xs).head? = ts.head? := by
  obtain ⟨k, us, rfl, -⟩ := d.opens
  rfl

/-- The first of some arguments does not start with a closing parenthesis. -/
theorem Derivation.not_rightParen {ts xs : List TokenKind} {es : List Expr}
    (d : Derivation .list ts es) : (ts ++ xs).head? ≠ some (.symbol .rightParen) := by
  obtain ⟨k, us, rfl, hk⟩ := d.opens
  simpa using hk

/-- Any other derivation of the phrase from the left of the same tokens takes the same tokens and
has the same tree, if neither could go on. -/
def Derivation.Decides {p : Phrase} {ts : List TokenKind} {r : p.Meaning} (_ : Derivation p ts r) :
    Prop :=
  ∀ ⦃us : List TokenKind⦄ ⦃r' : p.Meaning⦄ (_ : Derivation p us r') ⦃xs ys : List TokenKind⦄,
    ts ++ xs = us ++ ys → Follows p xs → Follows p ys → ts = us ∧ r = r'

namespace Derivation.Decides

variable {ts us vs : List TokenKind} {e left right : Expr} {level : Level}

theorem plain {c : Derivation (.level (some .or)) ts e} (ihc : c.Decides) :
    (Derivation.plain c).Decides := by
  intro us r' d' xs ys h hx hy
  cases d' with
  | plain c' => exact ihc c' h hx.1 hy.1
  | conditional c' a' b' =>
      -- the question mark would be among what follows
      rw [List.append_assoc] at h
      obtain ⟨rfl, -⟩ := ihc c' h hx.1 (ends_of_not_operator rfl not_operator_question)
      rw [List.append_cancel_left h] at hx
      exact absurd rfl hx.2

theorem conditional {e₁ e₂ e₃ : Expr} {c : Derivation (.level (some .or)) ts e₁}
    {a : Derivation .expression us e₂} {b : Derivation .expression vs e₃} (ihc : c.Decides)
    (iha : a.Decides) (ihb : b.Decides) : (Derivation.conditional c a b).Decides := by
  intro us r' d' xs ys h hx hy
  simp only [List.append_assoc, List.cons_append] at h
  cases d' with
  | plain c' =>
      obtain ⟨rfl, -⟩ := ihc c' h (ends_of_not_operator rfl not_operator_question) hy.1
      rw [← List.append_cancel_left h] at hy
      exact absurd rfl hy.2
  | conditional c' a' b' =>
      simp only [List.append_assoc, List.cons_append] at h
      obtain ⟨rfl, rfl⟩ := ihc c' h (ends_of_not_operator rfl not_operator_question)
        (ends_of_not_operator rfl not_operator_question)
      have h := List.tail_eq_of_cons_eq (List.append_cancel_left h)
      obtain ⟨rfl, rfl⟩ := iha a' h (follows_expression rfl not_operator_colon nofun)
        (follows_expression rfl not_operator_colon nofun)
      have h := List.tail_eq_of_cons_eq (List.append_cancel_left h)
      obtain ⟨rfl, rfl⟩ := ihb b' h hx hy
      exact ⟨rfl, rfl⟩

theorem chain {first : Derivation (.level level.tighter?) ts left}
    {others : Derivation (.links level left) us e} (ihf : first.Decides) (iho : others.Decides) :
    (Derivation.chain first others).Decides := by
  intro us r' d' xs ys h hx hy
  cases d' with
  | chain first' others' =>
      rw [List.append_assoc, List.append_assoc] at h
      obtain ⟨rfl, rfl⟩ := ihf first' h (others.ends_first hx) (others'.ends_first hy)
      obtain ⟨rfl, rfl⟩ := iho others' (List.append_cancel_left h) hx hy
      exact ⟨rfl, rfl⟩

theorem done : (Derivation.done : Derivation (.links level left) [] left).Decides := by
  intro us r' d' xs ys h hx hy
  cases d' with
  | done => exact ⟨rfl, rfl⟩
  | link operator =>
      -- the operator would be among what follows
      rw [List.nil_append] at h
      subst h
      exact absurd (hx _ _ _ rfl operator) (Nat.lt_irrefl _)

theorem link {s : Symbol} {op : BinaryOp} (operator : Operator level s op)
    {next : Derivation (.level level.tighter?) ts right}
    {others : Derivation (.links level (.binary op left right)) us e} (ihn : next.Decides)
    (iho : others.Decides) : (Derivation.link operator next others).Decides := by
  intro us r' d' xs ys h hx hy
  cases d' with
  | done =>
      rw [List.nil_append] at h
      subst h
      exact absurd (hy _ _ _ rfl operator) (Nat.lt_irrefl _)
  | link operator' next' others' =>
      simp only [List.cons_append, List.append_assoc, List.cons.injEq,
        TokenKind.symbol.injEq] at h
      obtain ⟨rfl, h⟩ := h
      obtain ⟨-, rfl⟩ := operator.unique operator'
      obtain ⟨rfl, rfl⟩ := ihn next' h (others.ends_first hx) (others'.ends_first hy)
      obtain ⟨rfl, rfl⟩ := iho others' (List.append_cancel_left h) hx hy
      exact ⟨rfl, rfl⟩

theorem sign {s : Symbol} {op : UnaryOp} (sign : Sign s op)
    (noCall : s = .not → ts.head? ≠ some (.symbol .leftParen))
    {inner : Derivation (.level none) ts e} (ih : inner.Decides) :
    (Derivation.sign sign noCall inner).Decides := by
  intro us r' d' xs ys h hx hy
  cases d' with
  | sign sign' noCall' inner' =>
      simp only [List.cons_append, List.cons.injEq, TokenKind.symbol.injEq] at h
      obtain ⟨rfl, h⟩ := h
      obtain rfl := sign.unique sign'
      obtain ⟨rfl, rfl⟩ := ih inner' h hx hy
      exact ⟨rfl, rfl⟩
  | unsigned inner' =>
      rw [← inner.head?_append xs] at noCall
      exact (inner'.not_sign sign noCall h).elim

theorem unsigned {inner : Derivation .operand ts e} (ih : inner.Decides) :
    (Derivation.unsigned inner).Decides := by
  intro us r' d' xs ys h hx hy
  cases d' with
  | sign sign' noCall' inner' =>
      rw [← inner'.head?_append ys] at noCall'
      exact (inner.not_sign sign' noCall' h.symm).elim
  | unsigned inner' => exact ih inner' h trivial trivial

theorem literal {k : TokenKind} (literal : Literal k e) :
    (Derivation.literal literal).Decides := by
  intro us r' d' xs ys h hx hy
  cases d' with
  | literal literal' =>
      obtain ⟨rfl, -⟩ := List.cons_eq_cons.mp h
      exact ⟨rfl, literal.unique literal'⟩
  | parenthesis =>
      obtain ⟨rfl, -⟩ := List.cons_eq_cons.mp h
      cases literal
  | call called =>
      obtain ⟨rfl, -⟩ := List.cons_eq_cons.mp h
      exact absurd called literal.not_callName
  | property called =>
      obtain ⟨rfl, -⟩ := List.cons_eq_cons.mp h
      exact absurd called literal.not_callName

theorem parenthesis {inner : Derivation .expression ts e} (ih : inner.Decides) :
    (Derivation.parenthesis inner).Decides := by
  intro us r' d' xs ys h hx hy
  cases d' with
  | literal literal =>
      obtain ⟨rfl, -⟩ := List.cons_eq_cons.mp h
      cases literal
  | parenthesis inner' =>
      simp only [List.cons_append, List.append_assoc, List.cons.injEq, true_and] at h
      obtain ⟨rfl, rfl⟩ := ih inner' h (follows_expression rfl not_operator_rightParen nofun)
        (follows_expression rfl not_operator_rightParen nofun)
      exact ⟨rfl, rfl⟩
  | call called =>
      obtain ⟨rfl, -⟩ := List.cons_eq_cons.mp h
      cases called
  | property called =>
      obtain ⟨rfl, -⟩ := List.cons_eq_cons.mp h
      cases called

theorem call {k : TokenKind} {name : String} {args : List Expr} (called : CallName k name)
    (ordinary : Text.fold name ≠ "prop") {inner : Derivation .arguments ts args}
    (ih : inner.Decides) : (Derivation.call called ordinary inner).Decides := by
  intro us r' d' xs ys h hx hy
  cases d' with
  | literal literal =>
      obtain ⟨rfl, -⟩ := List.cons_eq_cons.mp h
      exact absurd called literal.not_callName
  | parenthesis =>
      obtain ⟨rfl, -⟩ := List.cons_eq_cons.mp h
      cases called
  | call called' ordinary' inner' =>
      simp only [List.cons_append, List.append_assoc, List.cons.injEq, true_and] at h
      obtain ⟨rfl, h⟩ := h
      obtain rfl := called.unique called'
      obtain ⟨rfl, rfl⟩ := ih inner' h rfl rfl
      exact ⟨rfl, rfl⟩
  | property called' prop' =>
      obtain ⟨rfl, -⟩ := List.cons_eq_cons.mp h
      obtain rfl := called.unique called'
      exact absurd prop' ordinary

theorem property {k : TokenKind} {name column : String} (called : CallName k name)
    (prop : Text.fold name = "prop") {inner : Derivation .arguments ts [.string column]}
    (ih : inner.Decides) : (Derivation.property called prop inner).Decides := by
  intro us r' d' xs ys h hx hy
  cases d' with
  | literal literal =>
      obtain ⟨rfl, -⟩ := List.cons_eq_cons.mp h
      exact absurd called literal.not_callName
  | parenthesis =>
      obtain ⟨rfl, -⟩ := List.cons_eq_cons.mp h
      cases called
  | call called' ordinary' =>
      obtain ⟨rfl, -⟩ := List.cons_eq_cons.mp h
      obtain rfl := called.unique called'
      exact absurd prop ordinary'
  | property called' prop' inner' =>
      simp only [List.cons_append, List.append_assoc, List.cons.injEq, true_and] at h
      obtain ⟨rfl, h⟩ := h
      obtain ⟨rfl, hargs⟩ := ih inner' h rfl rfl
      cases hargs
      exact ⟨rfl, rfl⟩

theorem noArguments : Derivation.noArguments.Decides := by
  intro us r' d' xs ys h hx hy
  cases d' with
  | noArguments => exact ⟨rfl, rfl⟩
  | someArguments inner' =>
      rw [List.nil_append] at h
      subst h
      exact (inner'.not_rightParen hx).elim

theorem someArguments {args : List Expr} {inner : Derivation .list ts args} (ih : inner.Decides) :
    (Derivation.someArguments inner).Decides := by
  intro us r' d' xs ys h hx hy
  cases d' with
  | noArguments =>
      rw [List.nil_append] at h
      subst h
      exact (inner.not_rightParen hy).elim
  | someArguments inner' => exact ih inner' h hx hy

theorem last {first : Derivation .expression ts e} (ih : first.Decides) :
    (Derivation.last first).Decides := by
  intro us r' d' xs ys h hx hy
  cases d' with
  | last first' =>
      obtain ⟨rfl, rfl⟩ := ih first' h (follows_expression hx not_operator_rightParen nofun)
        (follows_expression hy not_operator_rightParen nofun)
      exact ⟨rfl, rfl⟩
  | more first' others' =>
      -- the comma would be the closing parenthesis
      rw [List.append_assoc] at h
      obtain ⟨rfl, -⟩ := ih first' h (follows_expression hx not_operator_rightParen nofun)
        (follows_expression rfl not_operator_comma nofun)
      rw [List.append_cancel_left h] at hx
      cases hx

theorem more {es : List Expr} {first : Derivation .expression ts e}
    {others : Derivation .list us es} (ihf : first.Decides) (iho : others.Decides) :
    (Derivation.more first others).Decides := by
  intro us r' d' xs ys h hx hy
  simp only [List.append_assoc, List.cons_append] at h
  cases d' with
  | last first' =>
      obtain ⟨rfl, -⟩ := ihf first' h (follows_expression rfl not_operator_comma nofun)
        (follows_expression hy not_operator_rightParen nofun)
      rw [← List.append_cancel_left h] at hy
      cases hy
  | more first' others' =>
      simp only [List.append_assoc, List.cons_append] at h
      obtain ⟨rfl, rfl⟩ := ihf first' h (follows_expression rfl not_operator_comma nofun)
        (follows_expression rfl not_operator_comma nofun)
      have h := List.tail_eq_of_cons_eq (List.append_cancel_left h)
      obtain ⟨rfl, rfl⟩ := iho others' h hx hy
      exact ⟨rfl, rfl⟩

end Derivation.Decides

/-- **Unique reading.** Every derivation decides its phrase. -/
theorem Derivation.decides {p : Phrase} {ts : List TokenKind} {r : p.Meaning}
    (d : Derivation p ts r) : d.Decides := by
  induction d with
  | plain _ ih => exact ih.plain
  | conditional _ _ _ ihc iha ihb => exact ihc.conditional iha ihb
  | chain _ _ ihf iho => exact ihf.chain iho
  | done => exact Decides.done
  | link operator _ _ ihn iho => exact ihn.link operator iho
  | sign sign noCall _ ih => exact ih.sign sign noCall
  | unsigned _ ih => exact ih.unsigned
  | literal literal => exact Decides.literal literal
  | parenthesis _ ih => exact ih.parenthesis
  | call called ordinary _ ih => exact ih.call called ordinary
  | property called prop _ ih => exact ih.property called prop
  | noArguments => exact Decides.noArguments
  | someArguments _ ih => exact ih.someArguments
  | last _ ih => exact ih.last
  | more _ _ ihf iho => exact ihf.more iho

/-- A formula has one tree. -/
theorem Derives.unique {kinds : List TokenKind} {e e' : Expr} (h : Derives kinds e)
    (h' : Derives kinds e') : e = e' := by
  obtain ⟨d⟩ := h
  obtain ⟨d'⟩ := h'
  exact (d.decides d' rfl follows_expression_nil follows_expression_nil).2

end FormulaTable.Formula
