import FormulaTable.Proofs.Formula.Reading
import FormulaTable.Proofs.Formula.Scanning
import FormulaTable.Proofs.Result

/-!
# The parser recognises the grammar

Reading is sound: the tokens between the place where a phrase starts and the place where its parser
stops derive the tree that it returns. Reading is complete: where the tokens derive a tree, the
parser returns it, unless the nesting of the derivation is too deep.
-/

namespace FormulaTable.Formula

/-! ## Soundness -/

/-- The tokens between the cursors `c` and `d` are a phrase that means `r`. -/
def Spans (p : Phrase) (r : p.Meaning) (c d : Cursor) : Prop :=
  ∃ ts, Nonempty (Derivation p ts r) ∧ c.kinds = ts ++ d.kinds

/-- What the parser of a phrase passes over from `c` on is that phrase. -/
def Sound (length : Nat) (p : Phrase) (c : Cursor) : Prop :=
  ∀ r d, read length p c = .ok (r, d) → Spans p r c d

theorem Cursor.remaining_eq (c : Cursor) : c.remaining = c.kinds.length := by
  rw [remaining, kinds, List.length_map]

/-- A phrase does not end before it starts. -/
theorem Spans.remaining_le {p : Phrase} {r : p.Meaning} {c d : Cursor} (h : Spans p r c d) :
    d.remaining ≤ c.remaining := by
  obtain ⟨ts, -, hts⟩ := h
  rw [Cursor.remaining_eq, Cursor.remaining_eq, hts, List.length_append]
  omega

/-- A token is before what is left after it. -/
theorem Cursor.remaining_lt {c d : Cursor} {k : TokenKind} (h : c.kinds = k :: d.kinds) :
    d.remaining < c.remaining := by
  rw [remaining_eq, remaining_eq, h, List.length_cons]
  omega

section

variable {length : Nat} {c : Cursor}

/-- Reading is sound at every place after `c`. -/
def SoundAfter (length : Nat) (c : Cursor) : Prop :=
  ∀ d : Cursor, d.remaining < c.remaining → ∀ p, Sound length p d

/-- A deeper cursor at the same place has the same places after it. -/
theorem SoundAfter.enter (ih : SoundAfter length c) {d : Cursor} (h : c.enter length = .ok d) :
    SoundAfter length d := by
  intro d' hd'
  rw [Cursor.remaining_enter h] at hd'
  exact ih d' hd'

/-- The tree of a call is the tree of its tokens. -/
theorem derivation_of_callTree {k : TokenKind} {name : String} {ts : List TokenKind}
    {args : List Expr} {e : Expr} (called : CallName k name)
    (inner : Derivation .arguments ts args) (h : callTree name args = .ok e) : Nonempty
      (Derivation .operand (k :: .symbol .leftParen :: (ts ++ [.symbol .rightParen])) e) := by
  unfold callTree at h
  split at h
  · rename_i prop
    split at h
    · cases h
      exact ⟨.property called prop inner⟩
    · cases h
  · rename_i ordinary
    cases h
    exact ⟨.call called ordinary inner⟩

theorem sound_operand (ih : SoundAfter length c) : Sound length .operand c := by
  intro e d h
  rw [read_operand] at h
  cases next : c.peek with
  | none =>
      rw [next] at h
      cases h
  | some k =>
      have hk := Cursor.kinds_of_peek next
      have hlt := Cursor.remaining_lt hk
      rw [next] at h
      dsimp only at h
      cases hl : literal? k with
      | some e' =>
          rw [hl] at h
          cases h
          exact ⟨[k], ⟨.literal (literal?_eq_some_iff.mp hl)⟩, hk⟩
      | none =>
          rw [hl] at h
          dsimp only at h
          split at h
          · rename_i paren
            obtain ⟨⟨e', d₁⟩, he, h⟩ := bind_eq_ok h
            obtain ⟨d₂, hclose, h⟩ := map_eq_ok h
            cases h
            obtain ⟨ts, ⟨inner⟩, hts⟩ := ih _ hlt _ _ _ he
            refine ⟨_, ⟨.parenthesis inner⟩, ?_⟩
            rw [hk, hts, Cursor.kinds_expect hclose, paren]
            simp
          · -- what is neither a literal nor a parenthesis has to be a call
            cases hname : calledName? k with
            | none =>
                rw [hname] at h
                cases h
            | some name =>
                have called := calledName?_eq_some_iff.mp hname
                rw [hname] at h
                dsimp only at h
                split at h
                · rename_i opened
                  have hopen := Cursor.kinds_of_sees opened
                  have hlt' := Cursor.remaining_lt hopen
                  obtain ⟨⟨args, d₁⟩, ha, h⟩ := bind_eq_ok h
                  obtain ⟨d₂, hclose, h⟩ := bind_eq_ok h
                  obtain ⟨ts, ⟨inner⟩, hts⟩ := ih _ (by omega) _ _ _ ha
                  split at h
                  · cases h
                  · rename_i htree
                    cases h
                    refine ⟨_, derivation_of_callTree called inner htree, ?_⟩
                    rw [hk, hopen, hts, Cursor.kinds_expect hclose]
                    simp
                · cases h

theorem sound_unary (ih : SoundAfter length c) : Sound length (.level none) c := by
  intro e d h
  rw [read_unary] at h
  cases hop : c.unary? with
  | none =>
      rw [hop] at h
      obtain ⟨ts, ⟨inner⟩, hts⟩ := sound_operand ih _ _ h
      exact ⟨ts, ⟨.unsigned inner⟩, hts⟩
  | some op =>
      obtain ⟨s, hs, sign, hcall⟩ := Cursor.unary?_eq_some_iff.mp hop
      have hk := Cursor.kinds_of_peek (c.peek_eq.trans hs)
      rw [hop] at h
      obtain ⟨d₁, entered, h⟩ := bind_eq_ok h
      obtain ⟨⟨e', d₂⟩, he, h⟩ := map_eq_ok h
      cases h
      have hlt : d₁.remaining < c.remaining := by
        rw [Cursor.remaining_enter entered]
        exact Cursor.remaining_lt hk
      obtain ⟨ts, ⟨inner⟩, hts⟩ := ih _ hlt _ _ _ he
      rw [Cursor.kinds_enter entered] at hts
      refine ⟨.symbol s :: ts, ⟨.sign sign ?_ inner⟩, ?_⟩
      · -- the token after the word `not` is the first of the operand
        intro hnot
        obtain ⟨k, us, rfl, -⟩ := inner.opens
        have := hcall hnot
        rw [← Cursor.kinds_next, hts] at this
        exact this
      · rw [hk, hts]
        rfl

theorem sound_links (ih : SoundAfter length c) {level : Level} {left : Expr} :
    Sound length (.links level left) c := by
  intro e d h
  rw [read_links] at h
  cases hop : c.operator? level with
  | none =>
      rw [hop] at h
      cases h
      exact ⟨[], ⟨.done⟩, rfl⟩
  | some op =>
      obtain ⟨s, hs, operator⟩ := Cursor.operator?_eq_some_iff.mp hop
      have hk := Cursor.kinds_of_peek (c.peek_eq.trans hs)
      have hlt := Cursor.remaining_lt hk
      rw [hop] at h
      obtain ⟨d₁, entered, h⟩ := bind_eq_ok h
      obtain ⟨⟨right, d₂⟩, hright, h⟩ := bind_eq_ok h
      obtain ⟨⟨e', d₃⟩, hothers, h⟩ := map_eq_ok h
      cases h
      have hr₁ := Cursor.remaining_enter entered
      have hnext := ih d₁ (by omega) _ _ _ hright
      have hr₂ := hnext.remaining_le
      obtain ⟨ts, ⟨next⟩, hts⟩ := hnext
      obtain ⟨us, ⟨others⟩, hus⟩ := ih d₂ (by omega) _ _ _ hothers
      refine ⟨_, ⟨.link operator next others⟩, ?_⟩
      rw [hk, ← Cursor.kinds_enter entered, hts, hus]
      simp

/-- A chain is sound if its operands are. -/
theorem sound_chain (ih : SoundAfter length c) {level : Level}
    (tighter : Sound length (.level level.tighter?) c) : Sound length (.level (some level)) c := by
  intro e d h
  rw [read_level] at h
  obtain ⟨⟨left, d₁⟩, hfirst, h⟩ := bind_eq_ok h
  obtain ⟨ts, ⟨first⟩, hts⟩ := tighter _ _ hfirst
  obtain ⟨us, ⟨others⟩, hus⟩ := ih d₁ (remaining_of_read_level hfirst) _ _ _ h
  refine ⟨_, ⟨.chain first others⟩, ?_⟩
  rw [hts, hus, List.append_assoc]

/-- Every level is sound, from the tightest to the loosest. -/
theorem sound_level (ih : SoundAfter length c) (level? : Option Level) :
    Sound length (.level level?) c := by
  induction level? using levels_induction with
  | last => exact sound_unary ih
  | looser level tighter => exact sound_chain ih tighter

theorem sound_expression (ih : SoundAfter length c) : Sound length .expression c := by
  intro e d h
  rw [read_expression] at h
  obtain ⟨d₁, entered, h⟩ := bind_eq_ok h
  obtain ⟨⟨condition, d₂⟩, hcondition, h⟩ := bind_eq_ok h
  have hspan := sound_level (ih.enter entered) _ _ _ hcondition
  have hr₁ := Cursor.remaining_enter entered
  have hr₂ := hspan.remaining_le
  obtain ⟨ts, ⟨dc⟩, hts⟩ := hspan
  rw [Cursor.kinds_enter entered] at hts
  dsimp only at h
  split at h
  · rename_i question
    have hk₂ := Cursor.kinds_of_sees question
    have hlt₂ := Cursor.remaining_lt hk₂
    obtain ⟨⟨consequent, d₃⟩, hconsequent, h⟩ := bind_eq_ok h
    obtain ⟨d₄, hcolon, h⟩ := bind_eq_ok h
    obtain ⟨⟨alternate, d₅⟩, halternate, h⟩ := map_eq_ok h
    cases h
    have hspan := ih _ (by omega) _ _ _ hconsequent
    have hr₃ := hspan.remaining_le
    have hlt₃ : d₄.remaining < d₃.remaining := Cursor.remaining_lt (Cursor.kinds_expect hcolon)
    obtain ⟨us, ⟨da⟩, hus⟩ := hspan
    obtain ⟨vs, ⟨db⟩, hvs⟩ := ih d₄ (by omega) _ _ _ halternate
    refine ⟨_, ⟨.conditional dc da db⟩, ?_⟩
    rw [hts, hk₂, hus, Cursor.kinds_expect hcolon, hvs]
    simp
  · cases h
    exact ⟨ts, ⟨.plain dc⟩, hts⟩

theorem sound_list (ih : SoundAfter length c) : Sound length .list c := by
  intro es d h
  rw [read_list] at h
  obtain ⟨⟨e, d₁⟩, he, h⟩ := bind_eq_ok h
  have hspan := sound_expression ih _ _ he
  have hr := hspan.remaining_le
  obtain ⟨ts, ⟨first⟩, hts⟩ := hspan
  dsimp only at h
  split at h
  · rename_i comma
    have hk := Cursor.kinds_of_sees comma
    have hlt := Cursor.remaining_lt hk
    obtain ⟨⟨es', d₂⟩, hes, h⟩ := map_eq_ok h
    cases h
    obtain ⟨us, ⟨others⟩, hus⟩ := ih _ (by omega) _ _ _ hes
    refine ⟨_, ⟨.more first others⟩, ?_⟩
    rw [hts, hk, hus]
    simp
  · cases h
    exact ⟨ts, ⟨.last first⟩, hts⟩

theorem sound_arguments (ih : SoundAfter length c) : Sound length .arguments c := by
  intro args d h
  rw [read_arguments] at h
  split at h
  · cases h
    exact ⟨[], ⟨.noArguments⟩, rfl⟩
  · obtain ⟨ts, ⟨inner⟩, hts⟩ := sound_list ih _ _ h
    exact ⟨ts, ⟨.someArguments inner⟩, hts⟩

end

/-- **Soundness.** Whatever a parser reads is a phrase of the grammar. -/
theorem sound (length : Nat) (p : Phrase) (c : Cursor) : Sound length p c := by
  -- on the number of tokens left: a parser calls another one either past a token or, at the same
  -- place, one of a tighter level
  induction h : c.remaining using Nat.strongRecOn generalizing p c with
  | _ n ih =>
      have ih : SoundAfter length c := by
        intro d hd p
        exact ih _ (h ▸ hd) p d rfl
      cases p with
      | expression => exact sound_expression ih
      | level level? => exact sound_level ih level?
      | links level left => exact sound_links ih
      | operand => exact sound_operand ih
      | arguments => exact sound_arguments ih
      | list => exact sound_list ih

/-! ## Nesting -/

/-- The levels of nesting that a derivation opens: one for an expression, for a sign and for a link,
and for a link as many more as for the links after it. What is closed again counts no more. -/
@[simp]
def Derivation.nesting {p : Phrase} {ts : List TokenKind} {r : p.Meaning} :
    Derivation p ts r → Nat
  | .plain c => c.nesting + 1
  | .conditional c a b => max c.nesting (max a.nesting b.nesting) + 1
  | .chain first others => max first.nesting others.nesting
  | .done => 0
  | .link _ next others => max next.nesting others.nesting + 1
  | .sign _ _ inner => inner.nesting + 1
  | .unsigned inner => inner.nesting
  | .literal _ => 0
  | .parenthesis inner => inner.nesting
  | .call _ _ inner => inner.nesting
  | .property _ _ inner => inner.nesting
  | .noArguments => 0
  | .someArguments inner => inner.nesting
  | .last first => first.nesting
  | .more first others => max first.nesting others.nesting

/-- `m` reads `r` and leaves the kinds `xs` at the depth `n` if the nesting fits, and fails for it
if it does not. -/
def Gives {α : Type} (m : Except SyntaxError (α × Cursor)) (fits : Prop) (r : α)
    (xs : List TokenKind) (n : Nat) : Prop :=
  (fits → ∃ d, m = .ok (r, d) ∧ d.kinds = xs ∧ d.depth = n) ∧
    (¬ fits → ∃ position, m = .error { cause := .nestedTooDeeply, position })

namespace Gives

variable {α β : Type} {a : α} {b : β} {xs ys : List TokenKind} {n k : Nat} {P Q : Prop}

/-- What needs no nesting always fits. -/
theorem ok {d : Cursor} (hP : P) (hd : d.kinds = xs) (hn : d.depth = n) :
    Gives (.ok (a, d)) P a xs n :=
  ⟨fun _ => ⟨d, rfl, hd, hn⟩, fun h => absurd hP h⟩

/-- One step after another: both have to fit. -/
theorem bind {m : Except SyntaxError (α × Cursor)}
    {f : α × Cursor → Except SyntaxError (β × Cursor)} (hm : Gives m P a xs n)
    (hf : P → ∀ d, d.kinds = xs → d.depth = n → Gives (f (a, d)) Q b ys k) :
    Gives (m.bind f) (P ∧ Q) b ys k := by
  by_cases hP : P
  · obtain ⟨d, rfl, hd, hn⟩ := hm.1 hP
    rw [and_iff_right hP]
    exact hf hP d hd hn
  · obtain ⟨position, rfl⟩ := hm.2 hP
    exact ⟨fun h => absurd h.1 hP, fun _ => ⟨position, rfl⟩⟩

/-- What is made of the result fits if the result does. -/
theorem map {m : Except SyntaxError (α × Cursor)} {f : α × Cursor → β × Cursor}
    (hm : Gives m P a xs n)
    (hf : ∀ d, d.kinds = xs → d.depth = n →
      (f (a, d)).1 = b ∧ (f (a, d)).2.kinds = ys ∧ (f (a, d)).2.depth = k) :
    Gives (m.map f) P b ys k := by
  constructor
  · intro hP
    obtain ⟨d, rfl, hd, hn⟩ := hm.1 hP
    obtain ⟨rfl, hys, hk⟩ := hf d hd hn
    exact ⟨_, rfl, hys, hk⟩
  · intro hP
    obtain ⟨position, rfl⟩ := hm.2 hP
    exact ⟨position, rfl⟩

/-- One level deeper: it has to be there. -/
theorem enter {length : Nat} {c : Cursor} {f : Cursor → Except SyntaxError (β × Cursor)}
    (hn : c.depth = n) (hf : n < maxNesting → ∀ d, d.kinds = c.kinds → d.depth = n + 1 →
      Gives (f d) Q b ys k) :
    Gives ((c.enter length).bind f) (n < maxNesting ∧ Q) b ys k := by
  subst hn
  unfold Cursor.enter
  by_cases hdepth : maxNesting ≤ c.depth
  · rw [if_pos hdepth]
    exact ⟨fun h => by omega, fun _ => ⟨_, rfl⟩⟩
  · rw [if_neg hdepth, and_iff_right (by omega)]
    exact hf (by omega) _ rfl rfl

/-- Past a symbol that comes next. -/
theorem expect {length : Nat} {c : Cursor} {s : Symbol} {context : Context}
    {f : Cursor → Except SyntaxError (β × Cursor)} (hs : c.kinds = .symbol s :: xs)
    (hn : c.depth = n) (hf : ∀ d, d.kinds = xs → d.depth = n → Gives (f d) Q b ys k) :
    Gives ((c.expect length s context).bind f) Q b ys k := by
  have hsees : c.sees s = true := by
    rw [Cursor.sees_iff, hs]
    rfl
  unfold Cursor.expect
  rw [if_pos hsees]
  refine hf _ ?_ hn
  rw [Cursor.kinds_next, hs]
  rfl

theorem congr {m : Except SyntaxError (α × Cursor)} (h : Gives m P a xs n) (hPQ : P ↔ Q) :
    Gives m Q a xs n := by
  rwa [← hPQ]

end Gives

/-! ## Completeness -/

/-- The parser reads what is derived, wherever the rest cannot go on, if the nesting fits. -/
def Derivation.Completes {p : Phrase} {ts : List TokenKind} {r : p.Meaning}
    (d : Derivation p ts r) : Prop :=
  ∀ ⦃length : Nat⦄ ⦃c : Cursor⦄ ⦃xs : List TokenKind⦄ ⦃n : Nat⦄, c.kinds = ts ++ xs →
    Follows p xs → c.depth = n → n ≤ maxNesting →
      Gives (read length p c) (n + d.nesting ≤ maxNesting) r xs n

/-- What is left after the next token. -/
theorem Cursor.kinds_next_of {c : Cursor} {k : TokenKind} {xs : List TokenKind}
    (h : c.kinds = k :: xs) : c.next.kinds = xs := by
  rw [kinds_next, h]
  rfl

/-- A symbol that comes next is seen. -/
theorem Cursor.sees_of {c : Cursor} {s : Symbol} {xs : List TokenKind}
    (h : c.kinds = .symbol s :: xs) : c.sees s = true := by
  rw [sees_iff, h]
  rfl

/-- Where a symbol does not come next, it is not seen. -/
theorem Cursor.not_sees {c : Cursor} {s : Symbol} (h : c.kinds.head? ≠ some (.symbol s)) :
    ¬ c.sees s = true := by
  rwa [sees_iff]

/-- Where a chain ends, no operator of its level comes next. -/
theorem Cursor.operator?_eq_none {c : Cursor} {level : Level} (h : Ends (some level) c.kinds) :
    c.operator? level = none := by
  cases hop : c.operator? level with
  | none => rfl
  | some op =>
      obtain ⟨s, hs, operator⟩ := operator?_eq_some_iff.mp hop
      exact absurd (h s level op hs operator) (Nat.lt_irrefl _)

/-- Going back up lowers the depth. -/
theorem Cursor.depth_leave (c : Cursor) (levels : Nat) :
    (c.leave levels).depth = c.depth - levels := rfl

namespace Derivation.Completes

variable {ts us vs : List TokenKind} {e left right : Expr} {level : Level}

theorem plain {c : Derivation (.level (some .or)) ts e} (ihc : c.Completes) :
    (Derivation.plain c).Completes := by
  intro length p xs n hp hx hn hd
  rw [read_expression]
  suffices h : Gives _ (n < maxNesting ∧ n + 1 + c.nesting ≤ maxNesting ∧ True) e xs n by
    apply h.congr
    simp only [Derivation.nesting, and_true]
    omega
  apply Gives.enter hn
  intro hlt d₁ hk₁ hn₁
  apply Gives.bind (ihc (hk₁.trans hp) hx.1 hn₁ hlt)
  intro _ d₂ hk₂ hn₂
  dsimp only
  -- no question mark follows
  rw [if_neg (Cursor.not_sees (hk₂ ▸ hx.2))]
  exact Gives.ok trivial hk₂ (by rw [Cursor.depth_leave]; omega)

theorem conditional {e₁ e₂ e₃ : Expr} {c : Derivation (.level (some .or)) ts e₁}
    {a : Derivation .expression us e₂} {b : Derivation .expression vs e₃} (ihc : c.Completes)
    (iha : a.Completes) (ihb : b.Completes) : (Derivation.conditional c a b).Completes := by
  intro length p xs n hp hx hn hd
  simp only [List.append_assoc, List.cons_append] at hp
  rw [read_expression]
  suffices h : Gives _ (n < maxNesting ∧ n + 1 + c.nesting ≤ maxNesting ∧
      n + 1 + a.nesting ≤ maxNesting ∧ n + 1 + b.nesting ≤ maxNesting)
      (Expr.conditional e₁ e₂ e₃) xs n by
    apply h.congr
    rw [Derivation.nesting]
    omega
  apply Gives.enter hn
  intro hlt d₁ hk₁ hn₁
  apply Gives.bind (ihc (hk₁.trans hp) (ends_of_not_operator rfl not_operator_question) hn₁ hlt)
  intro _ d₂ hk₂ hn₂
  dsimp only
  rw [if_pos (Cursor.sees_of hk₂)]
  apply Gives.bind (iha (Cursor.kinds_next_of hk₂)
    (follows_expression rfl not_operator_colon nofun) hn₂ hlt)
  intro _ d₃ hk₃ hn₃
  apply Gives.expect hk₃ hn₃
  intro d₄ hk₄ hn₄
  apply Gives.map (ihb hk₄ hx hn₄ hlt)
  intro d₅ hk₅ hn₅
  have hleave : (d₅.leave 1).depth = n := by rw [Cursor.depth_leave]; omega
  exact ⟨rfl, hk₅, hleave⟩

theorem chain {first : Derivation (.level level.tighter?) ts left}
    {others : Derivation (.links level left) us e} (ihf : first.Completes)
    (iho : others.Completes) : (Derivation.chain first others).Completes := by
  intro length p xs n hp hx hn hd
  rw [List.append_assoc] at hp
  rw [read_level]
  suffices h : Gives _ (n + first.nesting ≤ maxNesting ∧ n + others.nesting ≤ maxNesting)
      e xs n by
    apply h.congr
    rw [Derivation.nesting]
    omega
  apply Gives.bind (ihf hp (others.ends_first hx) hn hd)
  intro _ d₁ hk₁ hn₁
  exact iho hk₁ hx hn₁ hd

theorem done : (Derivation.done : Derivation (.links level left) [] left).Completes := by
  intro length p xs n hp hx hn hd
  rw [List.nil_append] at hp
  rw [read_links, Cursor.operator?_eq_none (hp ▸ hx)]
  exact Gives.ok hd hp hn

theorem link {s : Symbol} {op : BinaryOp} (operator : Operator level s op)
    {next : Derivation (.level level.tighter?) ts right}
    {others : Derivation (.links level (.binary op left right)) us e} (ihn : next.Completes)
    (iho : others.Completes) : (Derivation.link operator next others).Completes := by
  intro length p xs n hp hx hn hd
  simp only [List.cons_append, List.append_assoc] at hp
  have hop : p.operator? level = some op :=
    Cursor.operator?_eq_some_iff.mpr ⟨s, by rw [hp]; rfl, operator⟩
  rw [read_links, hop]
  suffices h : Gives _ (n < maxNesting ∧ n + 1 + next.nesting ≤ maxNesting ∧
      n + 1 + others.nesting ≤ maxNesting) e xs n by
    apply h.congr
    rw [Derivation.nesting]
    omega
  apply Gives.enter (c := p.next) hn
  intro hlt d₁ hk₁ hn₁
  apply Gives.bind (ihn (hk₁.trans (Cursor.kinds_next_of hp)) (others.ends_first hx) hn₁ hlt)
  intro _ d₂ hk₂ hn₂
  apply Gives.map (iho hk₂ hx hn₂ hlt)
  intro d₃ hk₃ hn₃
  exact ⟨rfl, hk₃, by rw [Cursor.depth_leave]; omega⟩

theorem sign {s : Symbol} {op : UnaryOp} (sign : Sign s op)
    (noCall : s = .not → ts.head? ≠ some (.symbol .leftParen))
    {inner : Derivation (.level none) ts e} (ih : inner.Completes) :
    (Derivation.sign sign noCall inner).Completes := by
  intro length p xs n hp hx hn hd
  have hop : p.unary? = some op := by
    refine Cursor.unary?_eq_some_iff.mpr ⟨s, by rw [hp]; rfl, sign, ?_⟩
    rw [hp]
    show s = .not → (ts ++ xs).head? ≠ _
    rwa [inner.head?_append]
  rw [read_unary, hop]
  suffices h : Gives _ (n < maxNesting ∧ n + 1 + inner.nesting ≤ maxNesting)
      (Expr.unary op e) xs n by
    apply h.congr
    rw [Derivation.nesting]
    omega
  apply Gives.enter (c := p.next) hn
  intro hlt d₁ hk₁ hn₁
  apply Gives.map (ih (hk₁.trans (Cursor.kinds_next_of hp)) hx hn₁ hlt)
  intro d₂ hk₂ hn₂
  exact ⟨rfl, hk₂, by rw [Cursor.depth_leave]; omega⟩

theorem unsigned {inner : Derivation .operand ts e} (ih : inner.Completes) :
    (Derivation.unsigned inner).Completes := by
  intro length p xs n hp hx hn hd
  have hop : p.unary? = none := by
    cases h : p.unary? with
    | none => rfl
    | some op =>
        -- an operand that starts with the word `not` is a call
        obtain ⟨s, hs, sign, hcall⟩ := Cursor.unary?_eq_some_iff.mp h
        have hk := Cursor.kinds_of_peek (p.peek_eq.trans hs)
        rw [← Cursor.kinds_next] at hcall
        exact absurd (hk.symm.trans hp) (inner.not_sign sign hcall)
  rw [read_unary, hop]
  exact ih hp trivial hn hd

theorem literal {k : TokenKind} (literal : Literal k e) :
    (Derivation.literal literal).Completes := by
  intro length p xs n hp hx hn hd
  have hpeek : p.peek = some k := by
    rw [p.peek_eq, hp]
    rfl
  rw [read_operand, hpeek]
  dsimp only
  rw [literal?_eq_some_iff.mpr literal]
  exact Gives.ok hd (Cursor.kinds_next_of hp) hn

theorem parenthesis {inner : Derivation .expression ts e} (ih : inner.Completes) :
    (Derivation.parenthesis inner).Completes := by
  intro length p xs n hp hx hn hd
  simp only [List.cons_append, List.append_assoc, List.nil_append] at hp
  have hpeek : p.peek = some (.symbol .leftParen) := by
    rw [p.peek_eq, hp]
    rfl
  rw [read_operand, hpeek]
  show Gives ((read length .expression p.next).bind _) _ _ _ _
  suffices h : Gives _ (n + inner.nesting ≤ maxNesting ∧ True) e xs n by
    apply h.congr
    rw [Derivation.nesting, and_true]
  apply Gives.bind (ih (Cursor.kinds_next_of hp)
    (follows_expression rfl not_operator_rightParen nofun) hn hd)
  intro _ d₁ hk₁ hn₁
  exact Gives.expect hk₁ hn₁ fun d₂ hk₂ hn₂ => Gives.ok trivial hk₂ hn₂

/-- A call whose arguments are read is read, if they have a tree with its name. -/
theorem called {k : TokenKind} {name : String} {args : List Expr} {e : Expr}
    (called : CallName k name) {inner : Derivation .arguments ts args} (ih : inner.Completes)
    (htree : callTree name args = .ok e) {length : Nat} {p : Cursor} {xs : List TokenKind}
    {n : Nat} (hp : p.kinds = k :: .symbol .leftParen :: (ts ++ .symbol .rightParen :: xs))
    (hn : p.depth = n) (hd : n ≤ maxNesting) :
    Gives (read length .operand p) (n + inner.nesting ≤ maxNesting) e xs n := by
  have hpeek : p.peek = some k := by
    rw [p.peek_eq, hp]
    rfl
  have hliteral : literal? k = none := by
    cases called <;> rfl
  have hparen : k ≠ .symbol .leftParen := by
    cases called <;> nofun
  have hnext := Cursor.kinds_next_of hp
  rw [read_operand, hpeek]
  dsimp only
  rw [hliteral]
  dsimp only
  rw [if_neg hparen, calledName?_eq_some_iff.mpr called]
  dsimp only
  rw [if_pos (Cursor.sees_of hnext)]
  suffices h : Gives _ (n + inner.nesting ≤ maxNesting ∧ True) e xs n by
    apply h.congr
    rw [and_true]
  apply Gives.bind (ih (Cursor.kinds_next_of hnext) rfl hn hd)
  intro _ d₁ hk₁ hn₁
  apply Gives.expect hk₁ hn₁
  intro d₂ hk₂ hn₂
  rw [htree]
  exact Gives.ok trivial hk₂ hn₂

theorem call {k : TokenKind} {name : String} {args : List Expr} (hname : CallName k name)
    (ordinary : Text.fold name ≠ "prop") {inner : Derivation .arguments ts args}
    (ih : inner.Completes) : (Derivation.call hname ordinary inner).Completes := by
  intro length p xs n hp hx hn hd
  simp only [List.cons_append, List.append_assoc, List.nil_append] at hp
  exact called hname ih (if_neg ordinary) hp hn hd

theorem property {k : TokenKind} {name column : String} (hname : CallName k name)
    (prop : Text.fold name = "prop") {inner : Derivation .arguments ts [.string column]}
    (ih : inner.Completes) : (Derivation.property hname prop inner).Completes := by
  intro length p xs n hp hx hn hd
  simp only [List.cons_append, List.append_assoc, List.nil_append] at hp
  exact called hname ih (if_pos prop) hp hn hd

theorem noArguments : Derivation.noArguments.Completes := by
  intro length p xs n hp hx hn hd
  rw [List.nil_append] at hp
  rw [read_arguments, if_pos (Cursor.sees_iff.mpr (hp ▸ hx))]
  exact Gives.ok hd hp hn

theorem someArguments {args : List Expr} {inner : Derivation .list ts args}
    (ih : inner.Completes) : (Derivation.someArguments inner).Completes := by
  intro length p xs n hp hx hn hd
  rw [read_arguments, if_neg (Cursor.not_sees (hp ▸ inner.not_rightParen))]
  exact ih hp hx hn hd

theorem last {first : Derivation .expression ts e} (ih : first.Completes) :
    (Derivation.last first).Completes := by
  intro length p xs n hp hx hn hd
  rw [read_list]
  suffices h : Gives _ (n + first.nesting ≤ maxNesting ∧ True) [e] xs n by
    apply h.congr
    rw [Derivation.nesting, and_true]
  apply Gives.bind (ih hp (follows_expression hx not_operator_rightParen nofun) hn hd)
  intro _ d₁ hk₁ hn₁
  have hcomma : d₁.kinds.head? ≠ some (.symbol .comma) := by
    rw [hk₁, hx]
    nofun
  dsimp only
  rw [if_neg (Cursor.not_sees hcomma)]
  exact Gives.ok trivial hk₁ hn₁

theorem more {es : List Expr} {first : Derivation .expression ts e}
    {others : Derivation .list us es} (ihf : first.Completes) (iho : others.Completes) :
    (Derivation.more first others).Completes := by
  intro length p xs n hp hx hn hd
  simp only [List.append_assoc, List.cons_append] at hp
  rw [read_list]
  suffices h : Gives _ (n + first.nesting ≤ maxNesting ∧ n + others.nesting ≤ maxNesting)
      (e :: es) xs n by
    apply h.congr
    rw [Derivation.nesting]
    omega
  apply Gives.bind (ihf hp (follows_expression rfl not_operator_comma nofun) hn hd)
  intro _ d₁ hk₁ hn₁
  dsimp only
  rw [if_pos (Cursor.sees_of hk₁)]
  apply Gives.map (iho (Cursor.kinds_next_of hk₁) hx hn₁ hd)
  intro d₂ hk₂ hn₂
  exact ⟨rfl, hk₂, hn₂⟩

end Derivation.Completes

/-- **Completeness.** The parser reads whatever is derived, if the nesting fits. -/
theorem Derivation.completes {p : Phrase} {ts : List TokenKind} {r : p.Meaning}
    (d : Derivation p ts r) : d.Completes := by
  induction d with
  | plain _ ih => exact ih.plain
  | conditional _ _ _ ihc iha ihb => exact ihc.conditional iha ihb
  | chain _ _ ihf iho => exact ihf.chain iho
  | done => exact Completes.done
  | link operator _ _ ihn iho => exact ihn.link operator iho
  | sign sign noCall _ ih => exact ih.sign sign noCall
  | unsigned _ ih => exact ih.unsigned
  | literal literal => exact Completes.literal literal
  | parenthesis _ ih => exact ih.parenthesis
  | call called ordinary _ ih => exact ih.call called ordinary
  | property called prop _ ih => exact ih.property called prop
  | noArguments => exact Completes.noArguments
  | someArguments _ ih => exact ih.someArguments
  | last _ ih => exact ih.last
  | more _ _ ihf iho => exact ihf.more iho

/-! ## Formulas -/

/-- The tree of a formula is the tree of an expression after which nothing is left. -/
theorem parseTokens_eq (stream : TokenStream) : parseTokens stream =
    (read stream.length .expression { rest := stream.tokens, depth := 0 }).bind fun (e, d) =>
      match d.peek with
      | none => .ok e
      | some k => d.fail stream.length (.afterExpression k) := by
  simp only [parseTokens, read, bind]
  cases parseExpression stream.length { rest := stream.tokens, depth := 0 } <;> rfl

/-- What the tokens of a formula are parsed to, they derive. -/
theorem derives_of_parseTokens {stream : TokenStream} {e : Expr}
    (h : parseTokens stream = .ok e) : Derives stream.kinds e := by
  rw [parseTokens_eq] at h
  obtain ⟨⟨e', d⟩, hread, h⟩ := bind_eq_ok h
  obtain ⟨ts, hts, hkinds⟩ := sound _ _ _ _ _ hread
  dsimp only at h
  split at h
  · rename_i hend
    cases h
    have hnil : d.kinds = [] := by
      rw [Cursor.peek_eq] at hend
      exact List.head?_eq_none_iff.mp hend
    rw [hnil, List.append_nil] at hkinds
    have hstream : stream.kinds = ts := hkinds
    rwa [Derives, hstream]
  · cases h

/-- What the tokens of a formula derive, they are parsed to, if the nesting of the derivation
fits. -/
theorem parseTokens_of_derivation {stream : TokenStream} {e : Expr}
    (d : Derivation .expression stream.kinds e) :
    (d.nesting ≤ maxNesting → parseTokens stream = .ok e) ∧
      (¬ d.nesting ≤ maxNesting → ∃ position,
        parseTokens stream = .error { cause := .nestedTooDeeply, position }) := by
  have hkinds : (Cursor.mk stream.tokens 0).kinds = stream.kinds ++ [] :=
    (List.append_nil _).symm
  have hgives : Gives (read stream.length .expression { rest := stream.tokens, depth := 0 })
      (0 + d.nesting ≤ maxNesting) e [] 0 :=
    d.completes hkinds follows_expression_nil rfl (Nat.zero_le _)
  obtain ⟨hfits, hdeep⟩ := hgives
  rw [Nat.zero_add] at hfits hdeep
  rw [parseTokens_eq]
  constructor
  · intro hd
    -- nothing is left after the expression
    obtain ⟨d', hread, hend, -⟩ := hfits hd
    rw [hread]
    simp only [Except.bind, Cursor.peek_eq, hend, List.head?_nil]
  · intro hd
    obtain ⟨position, hread⟩ := hdeep hd
    rw [hread]
    exact ⟨position, rfl⟩

/-- A formula without tokens derives nothing. -/
theorem not_derives_nil (e : Expr) : ¬ Derives [] e := by
  rintro ⟨d⟩
  obtain ⟨k, us, h, -⟩ := d.opens
  cases h

/-- A formula that is not blank is parsed from its tokens. -/
theorem parse_of_tokenize {formula : String} {stream : TokenStream}
    (h : tokenize formula = .ok stream) (hblank : ¬ formula.toList.all Text.isSpace = true) :
    parse formula = parseTokens stream := by
  rw [parse, if_neg hblank, h]
  rfl

/-- The tokens of a blank formula. -/
theorem kinds_of_blank {formula : String} {stream : TokenStream}
    (h : tokenize formula = .ok stream) (hblank : formula.toList.all Text.isSpace = true) :
    stream.kinds = [] := by
  rw [tokenize, tokensFrom_of_blank hblank] at h
  cases h
  rfl

/-- A formula whose tokens derive a tree is not blank. -/
theorem parse_of_derives {formula : String} {stream : TokenStream} {e : Expr}
    (h : tokenize formula = .ok stream) (hd : Derives stream.kinds e) :
    parse formula = parseTokens stream := by
  refine parse_of_tokenize h ?_
  intro hblank
  rw [kinds_of_blank h hblank] at hd
  exact not_derives_nil e hd

/-- A formula is accepted exactly if its tokens derive a tree with a nesting that fits. -/
theorem parse_eq_ok_iff {formula : String} {e : Expr} : parse formula = .ok e ↔
    ∃ stream, tokenize formula = .ok stream ∧
      ∃ d : Derivation .expression stream.kinds e, d.nesting ≤ maxNesting := by
  constructor
  · intro h
    by_cases hblank : formula.toList.all Text.isSpace = true
    · rw [parse, if_pos hblank] at h
      cases h
    · rw [parse, if_neg hblank] at h
      obtain ⟨stream, hstream, h⟩ := bind_eq_ok h
      obtain ⟨d⟩ := derives_of_parseTokens h
      refine ⟨stream, hstream, d, ?_⟩
      by_contra hdeep
      obtain ⟨position, herror⟩ := (parseTokens_of_derivation d).2 hdeep
      rw [h] at herror
      cases herror
  · rintro ⟨stream, hstream, d, hd⟩
    rw [parse_of_derives hstream ⟨d⟩]
    exact (parseTokens_of_derivation d).1 hd

/-- **The parser recognizes the grammar.** What it returns for a formula is derived by the tokens of
the formula; what they derive it returns if the nesting fits, and the formula is nested too deeply if
it does not; and no tokens derive two trees. -/
theorem parse_recognizes_grammar (formula : String) (stream : TokenStream)
    (h : tokenize formula = .ok stream) :
    (∀ e, parse formula = .ok e → Derives stream.kinds e) ∧
      (∀ e (d : Derivation .expression stream.kinds e),
        d.nesting ≤ maxNesting ∧ parse formula = .ok e ∨
          maxNesting < d.nesting ∧ ∃ error, parse formula = .error error ∧
            error.cause.message = "Formula is nested too deeply") ∧
      ∀ kinds e e', Derives kinds e → Derives kinds e' → e = e' := by
  refine ⟨?_, ?_, fun kinds e e' => Derives.unique⟩
  · intro e he
    obtain ⟨stream', hstream', d, -⟩ := parse_eq_ok_iff.mp he
    rw [h] at hstream'
    cases hstream'
    exact ⟨d⟩
  · intro e d
    by_cases hd : d.nesting ≤ maxNesting
    · exact Or.inl ⟨hd, parse_eq_ok_iff.mpr ⟨stream, h, d, hd⟩⟩
    · obtain ⟨position, herror⟩ := (parseTokens_of_derivation d).2 hd
      rw [← parse_of_derives h ⟨d⟩] at herror
      exact Or.inr ⟨Nat.lt_of_not_le hd, _, herror, rfl⟩

/-- A conditional on a call of `not`, with a property under a sign. -/
theorem parse_recognizes_conditional :
    tokenize "not(\"a\") ? -prop(\"A\") : \"b\" or \"c\"" = .ok {
        tokens := [⟨.symbol .not, 0⟩, ⟨.symbol .leftParen, 3⟩, ⟨.string "a", 4⟩,
          ⟨.symbol .rightParen, 7⟩, ⟨.symbol .question, 9⟩, ⟨.symbol .minus, 11⟩,
          ⟨.identifier "prop", 12⟩, ⟨.symbol .leftParen, 16⟩, ⟨.string "A", 17⟩,
          ⟨.symbol .rightParen, 20⟩, ⟨.symbol .colon, 22⟩, ⟨.string "b", 24⟩, ⟨.symbol .or, 28⟩,
          ⟨.string "c", 31⟩]
        length := 34 } ∧
      ∃ e, e.properties = ["A"] ∧ parse "not(\"a\") ? -prop(\"A\") : \"b\" or \"c\"" = .ok e ∧
        Derives [.symbol .not, .symbol .leftParen, .string "a", .symbol .rightParen,
          .symbol .question, .symbol .minus, .identifier "prop", .symbol .leftParen, .string "A",
          .symbol .rightParen, .symbol .colon, .string "b", .symbol .or, .string "c"] e := by
  have htokens : tokenize "not(\"a\") ? -prop(\"A\") : \"b\" or \"c\"" = .ok {
      tokens := [⟨.symbol .not, 0⟩, ⟨.symbol .leftParen, 3⟩, ⟨.string "a", 4⟩,
        ⟨.symbol .rightParen, 7⟩, ⟨.symbol .question, 9⟩, ⟨.symbol .minus, 11⟩,
        ⟨.identifier "prop", 12⟩, ⟨.symbol .leftParen, 16⟩, ⟨.string "A", 17⟩,
        ⟨.symbol .rightParen, 20⟩, ⟨.symbol .colon, 22⟩, ⟨.string "b", 24⟩, ⟨.symbol .or, 28⟩,
        ⟨.string "c", 31⟩]
      length := 34 } := by
    decide +kernel
  have hproperties : (parse "not(\"a\") ? -prop(\"A\") : \"b\" or \"c\"").toOption.map
      Expr.properties = some ["A"] := by
    decide +kernel
  refine ⟨htokens, ?_⟩
  cases h : parse "not(\"a\") ? -prop(\"A\") : \"b\" or \"c\"" with
  | error error =>
      rw [h] at hproperties
      cases hproperties
  | ok e =>
      rw [h] at hproperties
      refine ⟨e, Option.some.inj hproperties, rfl, ?_⟩
      exact (parse_recognizes_grammar _ _ htokens).1 e h

end FormulaTable.Formula
