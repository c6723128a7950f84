import FormulaTable.Proofs.Formula.TokenEnds

/-!
# Texts as strings of formulas

Every text can be written as a string: between two quotes of one sort, with a backslash before each
backslash and each quote of that sort. Everything else stands for itself there, so that the string is
one token, and as a formula it is the text.
-/

namespace FormulaTable.Formula

variable {quote c : Char} {s : List Char} {ts : List TokenKind} {e : Expr}

/-! ## Writing -/

/-- The quotes that a string can stand between. -/
def IsQuote (quote : Char) : Prop := quote = '"' ∨ quote = '\''

/-- A character of a string. -/
def escape (quote c : Char) : List Char := if c = '\\' ∨ c = quote then ['\\', c] else [c]

/-- A text as a string, with its quotes. -/
def inQuotes (quote : Char) (s : List Char) : List Char :=
  quote :: (s.flatMap (escape quote) ++ [quote])

/-- A text as a formula that is one string. -/
def quoted (quote : Char) (s : String) : String := String.ofList (inQuotes quote s.toList)

/-! ## Reading back -/

theorem IsQuote.ne_backslash (h : IsQuote quote) : '\\' ≠ quote := by
  rcases h with rfl | rfl
  · decide
  · decide

/-- The letters that mean something else after a backslash are no quotes. -/
theorem IsQuote.unescape_eq (h : IsQuote quote) (hc : c = '\\' ∨ c = quote) : unescape c = c := by
  rcases hc with rfl | rfl
  · rfl
  · rcases h with rfl | rfl
    · rfl
    · rfl

/-- A character is read back. -/
theorem scanString_escape (h : IsQuote quote) (c : Char) (rest : List Char) :
    scanString quote (escape quote c ++ rest) =
      (scanString quote rest).map fun (s, n) => (c :: s, n + (escape quote c).length) := by
  unfold escape
  split
  · next hc =>
    rw [List.cons_append, List.singleton_append, scanString_backslash h.ne_backslash,
      h.unescape_eq hc]
    rfl
  · next hc =>
    rw [not_or] at hc
    rw [List.singleton_append, scanString_cons hc.2 hc.1]
    rfl

/-- A text is read back up to the closing quote. -/
theorem scanString_flatMap_escape (h : IsQuote quote) (s rest : List Char) :
    scanString quote (s.flatMap (escape quote) ++ quote :: rest) =
      some (s, (s.flatMap (escape quote)).length + 1) := by
  induction s with
  | nil => exact scanString_quote quote rest
  | cons c s ih =>
      rw [List.flatMap_cons, List.append_assoc, scanString_escape h, ih, List.length_append]
      simp only [Option.map_some]
      congr 2
      omega

/-- A string is one token, whatever follows. -/
theorem scanToken_inQuotes (h : IsQuote quote) (s rest : List Char) :
    scanToken quote (s.flatMap (escape quote) ++ [quote] ++ rest) =
      .ok (.string (String.ofList s), (s.flatMap (escape quote) ++ [quote]).length) := by
  rw [List.append_assoc, List.singleton_append, List.length_append]
  exact scanToken_string h (scanString_flatMap_escape h s rest)

theorem IsQuote.isSpace_eq (h : IsQuote quote) : Text.isSpace quote = false := by
  rcases h with rfl | rfl
  · rfl
  · rfl

theorem spells_inQuotes (h : IsQuote quote) (s : List Char) :
    Spells (inQuotes quote s) [.string (String.ofList s)] :=
  .token h.isSpace_eq fun rest => scanToken_inQuotes h s rest

/-! ## Formulas -/

/-- An operand alone is a chain of every level. -/
theorem Derivation.exists_level (d : Derivation .operand ts e) (level? : Option Level) :
    ∃ d' : Derivation (.level level?) ts e, d'.nesting = d.nesting := by
  induction level? using levels_induction with
  | last => exact ⟨.unsigned d, rfl⟩
  | looser level tighter =>
      obtain ⟨first, hfirst⟩ := tighter
      have hchain : ∃ d' : Derivation (.level (some level)) (ts ++ []) e,
          d'.nesting = d.nesting := by
        refine ⟨.chain first .done, ?_⟩
        rw [nesting, nesting, hfirst, Nat.max_zero]
      rwa [List.append_nil] at hchain

/-- So it is an expression. -/
theorem Derivation.exists_expression (d : Derivation .operand ts e) :
    ∃ d' : Derivation .expression ts e, d'.nesting = d.nesting + 1 := by
  obtain ⟨chain, hchain⟩ := d.exists_level (some .or)
  refine ⟨.plain chain, ?_⟩
  rw [nesting, hchain]

/-- A formula of the tokens of one operand has its tree. -/
theorem parse_of_operand (hs : Spells s ts) (d : Derivation .operand ts e)
    (hd : d.nesting < maxNesting) : parse (String.ofList s) = .ok e := by
  obtain ⟨stream, hstream, rfl⟩ := hs.tokenize_eq
  obtain ⟨d', hd'⟩ := d.exists_expression
  refine parse_eq_ok_iff.mpr ⟨stream, hstream, d', ?_⟩
  rw [hd']
  exact hd

theorem spells_prop : Spells ['p', 'r', 'o', 'p', '('] [.identifier "prop", .symbol .leftParen] :=
  .cons (l := ['r', 'o', 'p']) rfl (fun _ => rfl) (.token rfl fun _ => rfl)

theorem spells_rightParen : Spells [')'] [.symbol .rightParen] := .token rfl fun _ => rfl

/-- A quoted text is one token, and the formula ends after it. -/
theorem tokenize_quoted (h : IsQuote quote) (s : String) : tokenize (quoted quote s) =
    .ok { tokens := [{ kind := .string s, position := 0 }], length := (quoted quote s).length } := by
  have hscan := scanToken_inQuotes h s.toList []
  rw [String.ofList_toList] at hscan
  have htokens : tokensFrom 0 _ = _ := tokensFrom_token h.isSpace_eq hscan rfl
  rw [List.append_nil, Nat.zero_add, ← inQuotes] at htokens
  rw [tokenize, quoted, String.toList_ofList, String.length_ofList]
  exact htokens

/-- **Strings can carry every text.** Between quotes of either sort a text is a single token, a
formula that is the text, and the name of a property. -/
theorem quoted_carries_text (hquote : IsQuote quote) (s : String) :
    tokenize (quoted quote s) =
        .ok { tokens := [{ kind := .string s, position := 0 }], length := (quoted quote s).length } ∧
      parse (quoted quote s) = .ok (.string s) ∧
      parse ("prop(" ++ quoted quote s ++ ")") = .ok (.property s) := by
  have hs := spells_inQuotes hquote s.toList
  rw [String.ofList_toList] at hs
  refine ⟨tokenize_quoted hquote s,
    parse_of_operand hs (.literal (.string s)) (Nat.zero_lt_succ 255), ?_⟩
  obtain ⟨argument, hargument⟩ := (Derivation.literal (.string s)).exists_expression
  have hprop : "prop(" ++ quoted quote s ++ ")" =
      String.ofList (['p', 'r', 'o', 'p', '('] ++ (inQuotes quote s.toList ++ [')'])) := by
    rw [String.ofList_append, String.ofList_append, ← String.append_assoc]
    rfl
  rw [hprop]
  refine parse_of_operand (spells_prop.append (hs.append spells_rightParen))
    (.property (.identifier "prop") (by decide) (.someArguments (.last argument))) ?_
  rw [Derivation.nesting, Derivation.nesting, Derivation.nesting, hargument, Derivation.nesting]
  decide

/-- A path in quotes, with an apostrophe before it and the end of the line after it. -/
theorem quoted_path : IsQuote '\'' ∧
    quoted '\'' "it's \"C:\\new\"\n" = "'it\\'s \"C:\\\\new\"\n'" ∧
    tokenize "'it\\'s \"C:\\\\new\"\n'" = .ok ⟨[⟨.string "it's \"C:\\new\"\n", 0⟩], 18⟩ ∧
    parse "'it\\'s \"C:\\\\new\"\n'" = .ok (.string "it's \"C:\\new\"\n") ∧
    parse "prop('it\\'s \"C:\\\\new\"\n')" = .ok (.property "it's \"C:\\new\"\n") := by
  have hquote : IsQuote '\'' := .inr rfl
  have htext : quoted '\'' "it's \"C:\\new\"\n" = "'it\\'s \"C:\\\\new\"\n'" := by decide
  have hcarries := quoted_carries_text hquote "it's \"C:\\new\"\n"
  rw [htext] at hcarries
  exact ⟨hquote, htext, hcarries⟩

end FormulaTable.Formula
