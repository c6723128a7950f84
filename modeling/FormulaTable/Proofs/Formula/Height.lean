import FormulaTable.Proofs.Formula.Recognition
import Mathlib.Order.Bounds.Basic
import Mathlib.Tactic.Ring

/-!
# How tall a tree may be

The limit bounds the nesting of the derivation of a formula, which is not the height of its tree.
A chain gives the levels of its links back at its end, and its tree then becomes the first operand
of a looser chain, so that every level of operators may add the whole limit to the height once more.
The height is bounded all the same, by `tallest`: every phrase has its bound, and a formula that
opens a call, runs a chain of every level after it and ends as the condition of a conditional
attains the bound of expressions.
-/

namespace FormulaTable.Formula

/-! ## Heights -/

namespace Expr

mutual

/-- The height of a tree. A call without arguments is as tall as a literal. -/
def height : Expr → Nat
  | .number _ | .string _ | .boolean _ | .property _ => 1
  | .binary _ left right => max left.height right.height + 1
  | .unary _ operand => operand.height + 1
  | .call _ args => heightOfAll args + 1
  | .conditional condition consequent alternate =>
    max condition.height (max consequent.height alternate.height) + 1

/-- The height of the tallest of some trees. -/
def heightOfAll : List Expr → Nat
  | [] => 0
  | e :: es => max e.height (heightOfAll es)

end

end Expr

/-- The height of what a phrase means. -/
def Phrase.height : (p : Phrase) → p.Meaning → Nat
  | expression, e | level _, e | links _ _, e | operand, e => e.height
  | arguments, es | list, es => Expr.heightOfAll es

/-- The height of the tallest expression with `n` levels of nesting. -/
def tallest : Nat → Nat
  | 0 => 0
  | 1 => 1
  | n + 2 => tallest (n + 1) + 6 * (n + 1) + 2

/-- The height of the tallest meaning of a phrase with `n` levels of nesting. Every level of
operators adds them all once more. -/
def Phrase.tallest : Phrase → Nat → Nat
  | expression, n | arguments, n | list, n => Formula.tallest n
  | level level?, n => Formula.tallest n + 1 + levelsFrom level? * n
  | links l left, n => max left.height (Formula.tallest n + 1 + levelsFrom l.tighter? * n) + n
  | operand, n => Formula.tallest n + 1

/-- The bound in closed form. -/
theorem tallest_succ_eq (n : Nat) : tallest (n + 1) = 3 * n ^ 2 + 5 * n + 1 := by
  induction n with
  | zero => rfl
  | succ n ih =>
      rw [tallest, ih]
      ring

/-- A chain of the loosest level fits in the next level of nesting. -/
theorem tallest_succ_ge (n : Nat) : tallest n + 1 + 6 * n ≤ tallest (n + 1) := by
  cases n with
  | zero => decide
  | succ n =>
      rw [tallest]
      omega

/-- A level is one more than the next tighter one. -/
theorem levelsFrom_some (level : Level) :
    levelsFrom (some level) = levelsFrom level.tighter? + 1 := by
  cases level <;> rfl

/-! ## The bound holds -/

/-- An expression is nested. -/
theorem Derivation.nesting_pos {ts : List TokenKind} {e : Expr}
    (d : Derivation .expression ts e) : 0 < d.nesting := by
  cases d with
  | plain c =>
      rw [nesting]
      omega
  | conditional c a b =>
      rw [nesting]
      omega

/-- What a phrase means is no taller than the bound of the phrase. -/
theorem Derivation.height_le {p : Phrase} {ts : List TokenKind} {r : p.Meaning}
    (d : Derivation p ts r) {n : Nat} (h : d.nesting ≤ n) : p.height r ≤ p.tallest n := by
  induction d generalizing n with
  | plain c ihc =>
      obtain ⟨n, rfl⟩ := Nat.exists_eq_add_of_le' (Nat.le_of_add_left_le h)
      have hc := ihc (Nat.le_of_succ_le_succ h)
      have hstep := tallest_succ_ge n
      simp only [Phrase.height, Phrase.tallest, levelsFrom] at hc ⊢
      omega
  | conditional c a b ihc iha ihb =>
      obtain ⟨n, rfl⟩ := Nat.exists_eq_add_of_le' (Nat.le_of_add_left_le h)
      rw [nesting, Nat.add_le_add_iff_right, max_le_iff, max_le_iff] at h
      obtain ⟨hc, ha, hb⟩ := h
      -- the consequent is nested, so there is a level to spare
      have hspare : 1 ≤ n := Nat.lt_of_lt_of_le a.nesting_pos ha
      obtain ⟨n, rfl⟩ := Nat.exists_eq_add_of_le' hspare
      have hc := ihc hc
      have ha := iha ha
      have hb := ihb hb
      simp only [Phrase.height, Phrase.tallest, levelsFrom, Expr.height, tallest] at hc ha hb ⊢
      omega
  | @chain level _ _ left e first others ihf iho =>
      rw [nesting, max_le_iff] at h
      have hf := ihf h.1
      have ho := iho h.2
      -- the first operand may use the whole nesting, and the links once more
      simp only [Phrase.height, Phrase.tallest] at hf ho ⊢
      rw [levelsFrom_some, Nat.succ_mul]
      omega
  | done =>
      simp only [Phrase.height, Phrase.tallest]
      omega
  | @link level s op left right e ts us operator next others ihn iho =>
      obtain ⟨n, rfl⟩ := Nat.exists_eq_add_of_le' (Nat.le_of_add_left_le h)
      rw [nesting, Nat.add_le_add_iff_right, max_le_iff] at h
      have hn := ihn h.1
      have ho := iho h.2
      have hstep := tallest_succ_ge n
      simp only [Phrase.height, Phrase.tallest, Expr.height] at hn ho ⊢
      rw [Nat.mul_succ]
      omega
  | sign sign noCall inner ih =>
      obtain ⟨n, rfl⟩ := Nat.exists_eq_add_of_le' (Nat.le_of_add_left_le h)
      have hi := ih (Nat.le_of_succ_le_succ h)
      have hstep := tallest_succ_ge n
      simp only [Phrase.height, Phrase.tallest, levelsFrom, Expr.height] at hi ⊢
      omega
  | unsigned inner ih =>
      have hi := ih h
      simp only [Phrase.height, Phrase.tallest, levelsFrom] at hi ⊢
      omega
  | literal literal =>
      simp only [Phrase.height, Phrase.tallest]
      cases literal <;> exact Nat.le_add_left 1 _
  | parenthesis inner ih => exact Nat.le_succ_of_le (ih h)
  | call called ordinary inner ih => exact Nat.succ_le_succ (ih h)
  | property called prop inner ih => exact Nat.le_add_left 1 _
  | noArguments => exact Nat.zero_le _
  | someArguments inner ih => exact ih h
  | last first ih => exact Nat.max_le.mpr ⟨ih h, Nat.zero_le _⟩
  | more first others ihf iho =>
      rw [nesting, max_le_iff] at h
      exact Nat.max_le.mpr ⟨ihf h.1, iho h.2⟩

/-! ## The bound is attained -/

/-- The text is a phrase with `n` levels of nesting and the height `h`. -/
def Attains (p : Phrase) (s : List Char) (n h : Nat) : Prop :=
  ∃ ts, Spells s ts ∧ ∃ r, ∃ d : Derivation p ts r, d.nesting = n ∧ p.height r = h

/-- An operator of a level. -/
def Level.sign : Level → List Char
  | or => ['|', '|']
  | and => ['&', '&']
  | equality => ['=', '=']
  | order => ['<', '=']
  | sum => ['+']
  | product => ['*']

/-- The text of links with empty strings as operands. -/
def linksText (level : Level) (links : Nat) : List Char :=
  (List.replicate links (level.sign ++ ['"', '"'])).flatten

theorem spells_sign (level : Level) :
    ∃ k op, Operator level k op ∧ Spells level.sign [.symbol k] := by
  cases level with
  | or => exact ⟨_, _, .or, .token rfl fun _ => rfl⟩
  | and => exact ⟨_, _, .and, .token rfl fun _ => rfl⟩
  | equality => exact ⟨_, _, .equal, .token rfl fun _ => rfl⟩
  | order => exact ⟨_, _, .lessEqual, .token rfl fun _ => rfl⟩
  | sum => exact ⟨_, _, .add, .token rfl fun _ => rfl⟩
  | product => exact ⟨_, _, .multiply, .token rfl fun _ => rfl⟩

namespace Attains

variable {s : List Char} {n h : Nat}

/-- The empty string. -/
theorem string : Attains .operand ['"', '"'] 0 1 := by
  have hs : Spells ['"', '"'] [.string ""] :=
    .token rfl fun text => scanToken_string (Or.inl rfl) (scanString_quote '"' text)
  exact ⟨_, hs, .string "", .literal (.string ""), rfl, rfl⟩

/-- A call of `not` is one higher than its argument. -/
theorem call (he : Attains .expression s n h) :
    Attains .operand (['!', '('] ++ (s ++ [')'])) n (h + 1) := by
  obtain ⟨ts, hs, e, d, hn, hh⟩ := he
  have hclose : Spells [')'] [.symbol .rightParen] := .token rfl fun _ => rfl
  have hopen : Spells ['!', '('] [.symbol .not, .symbol .leftParen] :=
    .cons (l := []) rfl (fun _ => rfl) (.token rfl fun _ => rfl)
  have hnot : Text.fold "not" ≠ "prop" := by decide
  refine ⟨_, hopen.append (hs.append hclose), _,
    .call .not hnot (.someArguments (.last d)), hn, ?_⟩
  rw [← hh]
  simp only [Phrase.height, Expr.height, Expr.heightOfAll, Nat.max_zero]

theorem unsigned (ho : Attains .operand s n h) : Attains (.level none) s n h := by
  obtain ⟨ts, hs, e, d, hn, hh⟩ := ho
  exact ⟨ts, hs, e, .unsigned d, hn, hh⟩

/-- A chain without links. -/
theorem looser (level : Level) (hfirst : Attains (.level level.tighter?) s n h) :
    Attains (.level (some level)) s n h := by
  obtain ⟨ts, hs, e, d, hn, hh⟩ := hfirst
  refine ⟨ts ++ [], ?_, e, .chain d .done, ?_, hh⟩
  · rwa [List.append_nil]
  · rw [Derivation.nesting, Derivation.nesting, hn, Nat.max_zero]

/-- The empty string is a chain of every level. -/
theorem string_level (level? : Option Level) : Attains (.level level?) ['"', '"'] 0 1 := by
  induction level? using levels_induction with
  | last => exact string.unsigned
  | looser level tighter => exact looser level tighter

/-- Links add their number to the height of what they start with. -/
theorem links (level : Level) (k : Nat) (left : Expr) (hleft : 1 ≤ left.height) :
    Attains (.links level left) (linksText level k) k (left.height + k) := by
  obtain ⟨sign, op, hop, hsign⟩ := spells_sign level
  obtain ⟨ts, hs, right, next, hnext, hright⟩ := string_level level.tighter?
  induction k generalizing left with
  | zero => exact ⟨[], .nil, left, .done, rfl, rfl⟩
  | succ k ih =>
      have hheight : (Expr.binary op left right).height = left.height + 1 := by
        rw [Expr.height, Nat.max_eq_left]
        exact hright.trans_le hleft
      obtain ⟨us, hs', e, others, hn, hh⟩ := ih (.binary op left right) (by omega)
      refine ⟨.symbol sign :: (ts ++ us), ?_, e, .link hop next others, ?_, ?_⟩
      · rw [linksText, List.replicate_succ, List.flatten_cons, List.append_assoc]
        exact hsign.append (hs.append hs')
      · rw [Derivation.nesting, hnext, hn, Nat.zero_max]
      · rw [Phrase.height] at hh ⊢
        omega

/-- Links give their nesting back: it does not add to that of the first operand, but their number
adds to its height. -/
theorem chain (level : Level) (hfirst : Attains (.level level.tighter?) s n h) (hh : 1 ≤ h)
    (k : Nat) : Attains (.level (some level)) (s ++ linksText level k) (max n k) (h + k) := by
  obtain ⟨ts, hs, left, first, hn, rfl⟩ := hfirst
  obtain ⟨us, hs', e, others, hn', hh'⟩ := links level k left hh
  refine ⟨_, hs.append hs', e, .chain first others, ?_, hh'⟩
  rw [Derivation.nesting, hn, hn']

/-- Chains of all levels from the tightest on add the nesting once for each. -/
theorem levels (hu : Attains (.level none) s n h) (hh : 1 ≤ h) (level? : Option Level) :
    ∃ s, Attains (.level level?) s n (h + levelsFrom level? * n) := by
  induction level? using levels_induction with
  | last =>
      rw [levelsFrom, Nat.zero_mul, Nat.add_zero]
      exact ⟨s, hu⟩
  | looser level tighter =>
      obtain ⟨s', h'⟩ := tighter
      have hchain := chain level h' (by omega) n
      rw [Nat.max_self] at hchain
      rw [levelsFrom_some, Nat.succ_mul, ← Nat.add_assoc]
      exact ⟨_, hchain⟩

/-- An expression that is not a conditional. -/
theorem plain (hc : Attains (.level (some .or)) s n h) : Attains .expression s (n + 1) h := by
  obtain ⟨ts, hs, e, d, hn, hh⟩ := hc
  refine ⟨ts, hs, e, .plain d, ?_, hh⟩
  rw [Derivation.nesting, hn]

/-- A conditional is one higher than its condition. -/
theorem conditional (hc : Attains (.level (some .or)) s n h) (hn : 1 ≤ n) (hh : 1 ≤ h) :
    ∃ s, Attains .expression s (n + 1) (h + 1) := by
  obtain ⟨ts, hs, c, condition, rfl, rfl⟩ := hc
  obtain ⟨us, hs', a, consequent, hn', hh'⟩ := (string_level (some .or)).plain
  have hquestion : Spells ['?'] [.symbol .question] := .token rfl fun _ => rfl
  have hcolon : Spells [':'] [.symbol .colon] := .token rfl fun _ => rfl
  refine ⟨_, _, hs.append (hquestion.append (hs'.append (hcolon.append hs'))), _,
    .conditional condition consequent consequent, ?_, ?_⟩
  · rw [Derivation.nesting, hn', Nat.max_self, Nat.max_eq_left hn]
  · have hheight : (Expr.conditional c a a).height = max c.height (max a.height a.height) + 1 := by
      rw [Expr.height]
    simp only [Phrase.height] at hh hh' ⊢
    omega

/-- With every nesting some expression has the greatest height. -/
theorem tallest (n : Nat) : ∃ s, Attains .expression s (n + 1) (Formula.tallest (n + 1)) := by
  induction n with
  | zero => exact ⟨_, (string_level (some .or)).plain⟩
  | succ n ih =>
      obtain ⟨s, hs⟩ := ih
      obtain ⟨s', hlevel⟩ := hs.call.unsigned.levels (by omega) (some .or)
      obtain ⟨s'', hs''⟩ := hlevel.conditional (by omega) (by omega)
      have hheight : Formula.tallest (n + 2) =
          Formula.tallest (n + 1) + 1 + levelsFrom (some .or) * (n + 1) + 1 := by
        rw [Formula.tallest, levelsFrom]
        omega
      rw [hheight]
      exact ⟨s'', hs''⟩

/-- The tokens of the text derive an expression. -/
theorem derivation (he : Attains .expression s n h) :
    ∃ stream e, tokenize (String.ofList s) = .ok stream ∧
      ∃ d : Derivation .expression stream.kinds e, d.nesting = n ∧ e.height = h := by
  obtain ⟨ts, hs, e, d, hd⟩ := he
  obtain ⟨stream, hstream, rfl⟩ := hs.tokenize_eq
  exact ⟨stream, e, hstream, d, hd⟩

end Attains

/-- The height of an expression, bounded in closed form. -/
theorem Derivation.expression_height_le {ts : List TokenKind} {e : Expr}
    (d : Derivation .expression ts e) {n : Nat} (h : d.nesting ≤ n + 1) :
    e.height ≤ 3 * n ^ 2 + 5 * n + 1 := by
  rw [← tallest_succ_eq]
  exact d.height_le h

/-- The tallest trees of the formulas with a given nesting. -/
theorem isGreatest_height (n : Nat) :
    IsGreatest {h | ∃ formula stream e, tokenize formula = .ok stream ∧
      ∃ d : Derivation .expression stream.kinds e, d.nesting = n + 1 ∧ e.height = h}
      (3 * n ^ 2 + 5 * n + 1) := by
  constructor
  · rw [← tallest_succ_eq]
    obtain ⟨s, hs⟩ := Attains.tallest n
    exact ⟨String.ofList s, hs.derivation⟩
  · rintro h ⟨formula, stream, e, -, d, hn, rfl⟩
    exact d.expression_height_le hn.le

/-- **What the limit bounds.** The tallest tree of an accepted formula. -/
theorem isGreatest_parse_height :
    IsGreatest {h | ∃ formula e, parse formula = .ok e ∧ e.height = h} 196351 := by
  obtain ⟨⟨formula, stream, e, hstream, d, hn, hh⟩, -⟩ := isGreatest_height 255
  constructor
  · exact ⟨formula, e, parse_eq_ok_iff.mpr ⟨stream, hstream, d, hn.le⟩, hh⟩
  · rintro h ⟨formula, e, he, rfl⟩
    obtain ⟨stream, -, d, hd⟩ := parse_eq_ok_iff.mp he
    exact d.expression_height_le (n := 255) hd

/-- With up to nine levels of nesting no tree is higher than the limit; with more, up to the limit,
some accepted one is. -/
theorem heights_le_of_nesting_iff (n : Nat) :
    (∀ formula stream e, tokenize formula = .ok stream →
        ∀ d : Derivation .expression stream.kinds e, d.nesting = n → parse formula = .ok e →
          e.height ≤ maxNesting) ↔
      n ≤ 9 ∨ maxNesting < n := by
  constructor
  · intro h
    by_contra hn
    obtain ⟨m, rfl⟩ : ∃ m, n = m + 9 + 1 := ⟨n - 10, by omega⟩
    -- the tallest formula with this nesting is accepted
    obtain ⟨⟨formula, stream, e, hstream, d, hd, hh⟩, -⟩ := isGreatest_height (m + 9)
    have hfits : d.nesting ≤ maxNesting := by
      rw [hd]
      omega
    have hheight := h formula stream e hstream d hd
      (parse_eq_ok_iff.mpr ⟨stream, hstream, d, hfits⟩)
    have hsquare : 9 ^ 2 ≤ (m + 9) ^ 2 := Nat.pow_le_pow_left (by omega) 2
    rw [hh, maxNesting] at hheight
    omega
  · rintro hn formula stream e hstream d rfl he
    rcases hn with hfew | hdeep
    · have hheight : e.height ≤ 3 * 8 ^ 2 + 5 * 8 + 1 := d.expression_height_le hfew
      rw [maxNesting]
      omega
    · -- the formula is refused
      obtain ⟨position, herror⟩ := (parseTokens_of_derivation d).2 (Nat.not_le_of_lt hdeep)
      rw [← parse_of_derives hstream ⟨d⟩, he] at herror
      cases herror

/-- **When the limit bounds the height.** It does for a formula exactly if the tree is within the
limit or the nesting beyond it, and for all formulas with `n` levels of nesting exactly if these are
at most nine or beyond the limit. -/
theorem parse_height_le_iff (formula : String) (n : Nat) :
    ((∀ e, parse formula = .ok e → e.height ≤ maxNesting) ↔
      ∀ stream e, tokenize formula = .ok stream → ∀ d : Derivation .expression stream.kinds e,
        e.height ≤ maxNesting ∨ maxNesting < d.nesting) ∧
    ((∀ formula stream e, tokenize formula = .ok stream →
        ∀ d : Derivation .expression stream.kinds e, d.nesting = n → parse formula = .ok e →
          e.height ≤ maxNesting) ↔
      n ≤ 9 ∨ maxNesting < n) := by
  refine ⟨⟨?_, ?_⟩, heights_le_of_nesting_iff n⟩
  · intro h stream e hstream d
    by_cases hd : d.nesting ≤ maxNesting
    · exact Or.inl (h e (parse_eq_ok_iff.mpr ⟨stream, hstream, d, hd⟩))
    · exact Or.inr (Nat.lt_of_not_le hd)
  · intro h e he
    obtain ⟨stream, hstream, d, hd⟩ := parse_eq_ok_iff.mp he
    rcases h stream e hstream d with hheight | hdeep
    · exact hheight
    · exact absurd hd (Nat.not_le_of_lt hdeep)

/-- A chain of products as long as the limit allows is one operand of a sum. -/
theorem parse_sum_of_products :
    ∃ e, parse (String.ofList (['"', '"'] ++ linksText .product 255 ++ linksText .sum 1)) = .ok e ∧
      maxNesting < e.height := by
  have hproduct := Attains.chain .product Attains.string.unsigned (Nat.le_refl 1) 255
  have hsum := Attains.chain .sum hproduct (by decide) 1
  have hor := (((hsum.looser .order).looser .equality).looser .and).looser .or
  obtain ⟨stream, e, hstream, d, hd, hh⟩ := hor.plain.derivation
  refine ⟨e, parse_eq_ok_iff.mpr ⟨stream, hstream, d, hd.le⟩, ?_⟩
  rw [hh]
  decide

end FormulaTable.Formula
