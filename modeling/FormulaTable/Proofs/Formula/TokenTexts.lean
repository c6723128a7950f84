import FormulaTable.Proofs.Formula.Spacing

/-!
# The texts of tokens

The tokens of a formula make it up: each one stands in it with white space after it, up to the next
one or the end, and only white space stands before the first one. What stands around a token does
not matter to it. Its own text is the same token.
-/

namespace FormulaTable.Formula

open Text (isSpace)

variable {position i next : Nat} {c : Char} {text s : List Char} {stream : TokenStream} {t : Token}

/-! ## Places -/

/-- The places of the tokens, and of the end. -/
def TokenStream.places (stream : TokenStream) : List Nat :=
  stream.tokens.map Token.position ++ [stream.length]

theorem TokenStream.exists_place_eq {p : Nat} (h : p ∈ stream.places) : ∃ i, stream.place i = p := by
  rcases List.mem_append.mp h with h | h
  · obtain ⟨t, ht, rfl⟩ := List.mem_map.mp h
    obtain ⟨i, hi⟩ := List.mem_iff_getElem?.mp ht
    refine ⟨i, ?_⟩
    rw [place, hi]
    rfl
  · obtain rfl := List.mem_singleton.mp h
    exact ⟨_, place_of_le (Nat.le_refl _)⟩

theorem TokenStream.place_eq (h : stream.tokens[i]? = some t) : stream.place i = t.position := by
  rw [place, h]
  rfl

/-- Every token takes some characters, so that the next one stands after it. -/
theorem Scans.places_increase (h : Scans position text stream) : stream.places.Pairwise (· < ·) := by
  induction h with
  | done position => exact List.pairwise_singleton _ _
  | space _ _ ih => exact ih
  | token _ _ h ih =>
      refine List.pairwise_cons.mpr ⟨fun p hp => ?_, ih⟩
      obtain ⟨i, rfl⟩ := TokenStream.exists_place_eq hp
      exact Nat.lt_of_lt_of_le (by dsimp only; omega) (h.le_place i)

/-- A formula ends after its last character. -/
theorem Scans.length_eq (h : Scans position text stream) :
    stream.length = position + text.length := by
  induction h with
  | done position => rfl
  | space _ _ ih =>
      rw [ih, List.length_cons]
      omega
  | token _ hscan _ ih =>
      have hle := scanToken_le hscan
      rw [ih, List.length_drop, List.length_cons]
      omega

/-! ## The parts of a text -/

/-- A text starts with the white space before its first token. -/
theorem Scans.exists_blank (h : Scans position text stream) :
    ∃ blank after, text = blank ++ after ∧ blank.all isSpace = true ∧
      stream.place 0 = position + blank.length := by
  induction h with
  | done position => exact ⟨[], [], rfl, rfl, rfl⟩
  | @space position c rest stream hspace _ ih =>
      obtain ⟨blank, after, rfl, hblank, hplace⟩ := ih
      refine ⟨c :: blank, after, rfl, ?_, ?_⟩
      · rw [List.all_cons, hspace, hblank]
        rfl
      · rw [hplace, List.length_cons]
        omega
  | token => exact ⟨[], _, rfl, rfl, rfl⟩

/-- The token `t` in a text that follows `position` characters: its characters, `first` and `others`,
and the white space after them, up to `next`. -/
structure Standing (position : Nat) (text : List Char) (t : Token) (next : Nat) where
  before : List Char
  first : Char
  others : List Char
  blank : List Char
  after : List Char
  text_eq : text = before ++ (first :: (others ++ (blank ++ after)))
  position_eq : t.position = position + before.length
  next_eq : next = t.position + (first :: (others ++ blank)).length
  solid : isSpace first = false
  space : blank.all isSpace = true
  scan : scanToken first (others ++ (blank ++ after)) = .ok (t.kind, others.length)

/-- It stands there also with more characters in front. -/
def Standing.behind (st : Standing (position + s.length) text t next) :
    Standing position (s ++ text) t next :=
  { st with
    before := s ++ st.before
    text_eq := by rw [List.append_assoc, ← st.text_eq]
    position_eq := by rw [st.position_eq, List.length_append, Nat.add_assoc] }

/-- Every token stands in the text, up to the next one. -/
theorem Scans.exists_standing (h : Scans position text stream) (ht : stream.tokens[i]? = some t) :
    Nonempty (Standing position text t (stream.place (i + 1))) := by
  induction h generalizing i with
  | done => cases ht
  | @space position c rest stream _ _ ih =>
      obtain ⟨st⟩ := ih ht
      exact ⟨st.behind (s := [c])⟩
  | @token position c rest kind n stream hspace hscan h ih =>
      have hlength : (rest.take n).length = n := List.length_take_of_le (scanToken_le hscan)
      cases i with
      | zero =>
          obtain rfl := Option.some.inj ht
          obtain ⟨blank, after, hrest, hblank, hplace⟩ := h.exists_blank
          refine ⟨⟨[], c, rest.take n, blank, after, ?_, rfl, ?_, hspace, hblank, ?_⟩⟩
          · rw [← hrest, List.take_append_drop]
            rfl
          · rw [TokenStream.place_succ, hplace, List.length_cons, List.length_append, hlength]
            dsimp only
            omega
          · rw [← hrest, List.take_append_drop, hlength]
            exact hscan
      | succ i =>
          have hposition : position + (c :: rest.take n).length = position + 1 + n := by
            rw [List.length_cons, hlength]
            omega
          rw [← hposition] at ih
          obtain ⟨st⟩ := ih ht
          have hst := st.behind
          rw [List.cons_append, List.take_append_drop] at hst
          exact ⟨hst⟩

namespace Standing

variable (st : Standing position text t next)

/-- The characters from the token up to the next one. -/
theorem slice_eq : (text.take (next - position)).drop (t.position - position) =
    st.first :: (st.others ++ st.blank) := by
  have hposition := st.position_eq
  have hnext := st.next_eq
  have hstart : t.position - position = st.before.length := by omega
  have hlength : next - position - st.before.length =
      (st.first :: (st.others ++ st.blank)).length := by omega
  have hdrop : text.drop st.before.length =
      st.first :: (st.others ++ st.blank) ++ st.after := by
    rw [List.cons_append, List.append_assoc]
    exact (congrArg (List.drop st.before.length) st.text_eq).trans List.drop_left
  rw [hstart, List.drop_take, hlength, hdrop, List.take_left]

/-- The text of a token, alone, is that token. -/
theorem tokensFrom_eq (place : Nat) : tokensFrom place (st.first :: (st.others ++ st.blank)) =
    .ok { tokens := [{ kind := t.kind, position := place }]
          length := place + (st.first :: (st.others ++ st.blank)).length } :=
  tokensFrom_token st.solid
    (scanToken_replace (spaceNext_of_blank st.space) st.scan (Nat.le_refl _)) st.space

end Standing

/-! ## Formulas -/

/-- The text from a token up to the next one. -/
def TokenStream.textOf (stream : TokenStream) (formula : String) (i : Nat) : String :=
  String.ofList ((formula.toList.take (stream.place (i + 1))).drop (stream.place i))

/-- **The tokens of a formula lose nothing of it.** They stand one after another, and the end of the
formula, which is its length, after them all. Only white space stands before the first. The text from
a token up to the next one is that token and no other. -/
theorem tokens_lose_nothing {formula : String} (h : tokenize formula = .ok stream) :
    stream.places.Pairwise (· < ·) ∧ stream.length = formula.length ∧
      (formula.toList.take (stream.place 0)).all isSpace = true ∧
      ∀ i t, stream.tokens[i]? = some t → tokenize (stream.textOf formula i) =
        .ok { tokens := [{ kind := t.kind, position := 0 }]
              length := (stream.textOf formula i).length } := by
  have hscans := scans_of_tokensFrom h
  refine ⟨hscans.places_increase, ?_, ?_, ?_⟩
  · rw [hscans.length_eq, Nat.zero_add, String.length_toList]
  · obtain ⟨blank, after, htext, hblank, hplace⟩ := hscans.exists_blank
    rw [htext, hplace, Nat.zero_add, List.take_left]
    exact hblank
  · intro i t ht
    obtain ⟨st⟩ := hscans.exists_standing ht
    have htext : stream.textOf formula i = String.ofList (st.first :: (st.others ++ st.blank)) := by
      rw [TokenStream.textOf, TokenStream.place_eq ht, ← st.slice_eq]
      rfl
    rw [htext, tokenize, String.toList_ofList, String.length_ofList, st.tokensFrom_eq, Nat.zero_add]

/-- A number before an `e` that starts no exponent, and a sign before white space. -/
theorem number_before_lone_e : ∃ stream,
    tokenize " 1 2.5e+ >=\t" = .ok stream ∧ stream.places = [1, 3, 6, 7, 9, 12] ∧
      stream.textOf " 1 2.5e+ >=\t" 1 = "2.5" ∧ stream.textOf " 1 2.5e+ >=\t" 4 = ">=\t" ∧
      tokenize "2.5" = .ok ⟨[⟨.number 2.5, 0⟩], 3⟩ ∧
      tokenize ">=\t" = .ok ⟨[⟨.symbol .greaterEqual, 0⟩], 3⟩ := by
  have h : tokenize " 1 2.5e+ >=\t" = .ok ⟨[⟨.number 1, 1⟩, ⟨.number 2.5, 3⟩, ⟨.identifier "e", 6⟩,
      ⟨.symbol .plus, 7⟩, ⟨.symbol .greaterEqual, 9⟩], 12⟩ := by decide +kernel
  obtain ⟨-, -, -, htext⟩ := tokens_lose_nothing h
  exact ⟨_, h, rfl, by decide, by decide, htext 1 _ rfl, htext 4 _ rfl⟩

end FormulaTable.Formula
