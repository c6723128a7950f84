import FormulaTable.Calendar.Pattern
import FormulaTable.Proofs.Text.Longest

/-!
# How patterns are read

A pattern reads in one way as fields and single characters, from left to right: at each place the
longest name of a field that stands there is taken. No name reaches over a character that is in none,
so a pattern can be cut there, and its parts are written one after the other.
-/

namespace FormulaTable.Calendar

open Text (IsLongest isLongest_of_find? prefix_of_prefix_append_cons)

variable {c : Char} {name p q rest s : List Char} {f : Field} {ps qs : List Piece}

namespace Field

/-! ## Names -/

/-- A name of a field. -/
def IsName (name : List Char) : Prop := name ∈ names.map Prod.fst

theorem isName_of_mem (h : (name, f) ∈ names) : IsName name := List.mem_map_of_mem h

theorem IsName.ne_nil (h : IsName name) : name ≠ [] := by
  have hall : ∀ name ∈ names.map Prod.fst, name ≠ [] := by decide
  exact hall name h

/-- A name is the name of one field. -/
theorem eq_of_mem_names {g : Field} (hf : (name, f) ∈ names) (hg : (name, g) ∈ names) : f = g := by
  have hall : ∀ a ∈ names, ∀ b ∈ names, a.1 = b.1 → a.2 = b.2 := by decide
  exact hall _ hf _ hg rfl

/-- No name is longer than one before it. -/
theorem names_descend : names.Pairwise fun a b => b.1.length ≤ a.1.length := by decide

/-- The name that is found is the longest. -/
theorem isLongest_of_starting? (h : starting? s = some (name, f)) :
    (name, f) ∈ names ∧ IsLongest IsName s name :=
  ⟨List.mem_of_find?_eq_some h, isLongest_of_find? names_descend h⟩

/-- None is found just where none stands. -/
theorem starting?_eq_none_iff : starting? s = none ↔ ∀ name, IsName name → ¬ name <+: s := by
  unfold starting?
  rw [List.find?_eq_none]
  constructor
  · intro h name hname hstarts
    obtain ⟨e, he, rfl⟩ := List.mem_map.mp hname
    exact h e he (List.isPrefixOf_iff_prefix.mpr hstarts)
  · intro h e he hstarts
    exact h e.1 (List.mem_map_of_mem he) (List.isPrefixOf_iff_prefix.mp hstarts)

/-- **The field that is found is the one with the longest name.** -/
theorem starting?_eq_some_iff :
    starting? s = some (name, f) ↔ (name, f) ∈ names ∧ IsLongest IsName s name := by
  constructor
  · exact isLongest_of_starting?
  · rintro ⟨hmem, hlongest⟩
    cases hfound : starting? s with
    | none => exact absurd hlongest.starts (starting?_eq_none_iff.mp hfound name hlongest.holds)
    | some found =>
        obtain ⟨hmem', hlongest'⟩ := isLongest_of_starting? hfound
        have hname : found.1 = name := hlongest'.eq hlongest
        subst hname
        exact congrArg (fun g => some (found.1, g)) (eq_of_mem_names hmem' hmem)

/-- How a field is written in a pattern. -/
def spelling (f : Field) : List Char := ((names.find? (·.2 = f)).map Prod.fst).getD []

theorem spelling_eq (h : (name, f) ∈ names) : f.spelling = name := by
  have hall : ∀ e ∈ names, e.2.spelling = e.1 := by decide
  exact hall _ h

end Field

open FormulaTable.Calendar.Field (IsName)

/-! ## Pieces -/

/-- How a piece is written in a pattern. -/
def Piece.source : Piece → List Char
  | .field f => f.spelling
  | .literal c => [c]

/-- The pieces of a pattern from left to right. At each place the longest name is a piece, and a
character is one where no name stands. -/
inductive ReadsAs : List Char → List Piece → Prop where
  | done : ReadsAs [] []
  | field {name rest : List Char} {f : Field} {ps : List Piece} (hname : (name, f) ∈ Field.names)
      (hlongest : IsLongest IsName (name ++ rest) name) (h : ReadsAs rest ps) :
      ReadsAs (name ++ rest) (.field f :: ps)
  | literal {c : Char} {rest : List Char} {ps : List Piece}
      (hnone : ∀ name, IsName name → ¬ name <+: c :: rest) (h : ReadsAs rest ps) :
      ReadsAs (c :: rest) (.literal c :: ps)

/-- The pieces make up the pattern. -/
theorem ReadsAs.source_eq (h : ReadsAs s ps) : ps.flatMap Piece.source = s := by
  induction h with
  | done => rfl
  | field hname _ _ ih => rw [List.flatMap_cons, ih, Piece.source, Field.spelling_eq hname]
  | literal _ _ ih =>
      rw [List.flatMap_cons, ih]
      rfl

/-- The pieces that are found are those of the pattern. -/
theorem readsAs_piecesAfter (skip : Nat) (s : List Char) :
    ReadsAs (s.drop skip) (piecesAfter skip s) := by
  induction s generalizing skip with
  | nil =>
      rw [List.drop_nil, piecesAfter]
      exact .done
  | cons c rest ih =>
      cases skip with
      | succ skip => exact ih skip
      | zero =>
          rw [List.drop_zero, piecesAfter]
          split
          · next name f hfound =>
            obtain ⟨hname, hlongest⟩ := Field.isLongest_of_starting? hfound
            obtain ⟨d, name, rfl⟩ := List.exists_cons_of_ne_nil hlongest.holds.ne_nil
            obtain ⟨after, htext⟩ := hlongest.starts
            obtain rfl : name ++ after = rest := (List.cons.inj htext).2
            have hafter := ih name.length
            rw [List.drop_left] at hafter
            rw [← htext] at hlongest ⊢
            exact .field hname hlongest hafter
          · next hnone => exact .literal (Field.starting?_eq_none_iff.mp hnone) (ih 0)

theorem readsAs_pieces (pattern : List Char) : ReadsAs pattern (pieces pattern) :=
  readsAs_piecesAfter 0 pattern

/-- A pattern has no other pieces. -/
theorem ReadsAs.unique (h : ReadsAs s ps) (h' : ReadsAs s qs) : ps = qs := by
  induction h generalizing qs with
  | done =>
      generalize htext : [] = text at h'
      cases h' with
      | done => rfl
      | field hname =>
          exact absurd (List.append_eq_nil_iff.mp htext.symm).1 (Field.isName_of_mem hname).ne_nil
      | literal => cases htext
  | @field name rest f ps hname hlongest _ ih =>
      generalize htext : name ++ rest = text at h' hlongest
      cases h' with
      | done =>
          exact absurd (List.append_eq_nil_iff.mp htext).1 hlongest.holds.ne_nil
      | field hname' hlongest' h' =>
          obtain rfl := hlongest.eq hlongest'
          obtain rfl := List.append_cancel_left htext
          rw [Field.eq_of_mem_names hname hname', ih h']
      | literal hnone => exact absurd hlongest.starts (hnone name hlongest.holds)
  | @literal c rest ps hnone _ ih =>
      generalize htext : c :: rest = text at h' hnone
      cases h' with
      | done => cases htext
      | field _ hlongest' => exact absurd hlongest'.starts (hnone _ hlongest'.holds)
      | literal _ h' =>
          obtain ⟨rfl, rfl⟩ := List.cons.inj htext
          rw [ih h']

/-! ## Cuts -/

/-- A character that is in no name. -/
def IsMark (c : Char) : Prop := ∀ name, IsName name → c ∉ name

instance (c : Char) : Decidable (IsMark c) :=
  inferInstanceAs (Decidable (∀ name ∈ Field.names.map Prod.fst, c ∉ name))

/-- A name that stands before such a character ends before it. -/
theorem IsMark.prefix_of_prefix_append (hc : IsMark c) (hname : IsName name)
    (h : name <+: p ++ c :: q) : name <+: p :=
  prefix_of_prefix_append_cons h (hc name hname)

/-- What stands behind such a character does not matter to what stands before it. -/
theorem ReadsAs.append_literal (hp : ReadsAs p ps) (hc : IsMark c) (hq : ReadsAs q qs) :
    ReadsAs (p ++ c :: q) (ps ++ .literal c :: qs) := by
  induction hp with
  | done =>
      refine .literal (fun name hname hstarts => hname.ne_nil ?_) hq
      exact List.prefix_nil.mp (hc.prefix_of_prefix_append (p := []) hname hstarts)
  | @field name rest f ps hname hlongest _ ih =>
      rw [List.append_assoc]
      refine .field hname ⟨hlongest.holds, List.prefix_append _ _, fun name' hname' hstarts => ?_⟩ ih
      rw [← List.append_assoc] at hstarts
      exact hlongest.longest name' hname' (hc.prefix_of_prefix_append hname' hstarts)
  | @literal d rest ps hnone _ ih =>
      refine .literal (fun name hname hstarts => hnone name hname ?_) ih
      exact hc.prefix_of_prefix_append (p := d :: rest) hname hstarts

theorem pieces_append (hc : IsMark c) (p q : List Char) :
    pieces (p ++ c :: q) = pieces p ++ .literal c :: pieces q :=
  (readsAs_pieces _).unique ((readsAs_pieces p).append_literal hc (readsAs_pieces q))

/-- **Patterns are written piece by piece.** A pattern is cut at every character that is in no name:
what stands before it and what stands behind it are written on their own. It is read to its end, at
each place as the longest name that stands there, and at any place that is the name found. -/
theorem patterns_are_cut_at_marks :
    (∀ (t : Instant) (p q : List Char) (c : Char), IsMark c →
      t.format (p ++ c :: q) = t.format p ++ c :: t.format q) ∧
      (∀ pattern ps, ReadsAs pattern ps ↔ pieces pattern = ps) ∧
      (∀ pattern, (pieces pattern).flatMap Piece.source = pattern) ∧
      ∀ s name f, Field.starting? s = some (name, f) ↔
        (name, f) ∈ Field.names ∧ IsLongest IsName s name := by
  refine ⟨fun t p q c hc => ?_, fun pattern ps => ⟨fun h => ?_, ?_⟩, fun pattern => ?_,
    fun s name f => Field.starting?_eq_some_iff⟩
  · unfold Instant.format
    rw [pieces_append hc, List.flatMap_append, List.flatMap_cons]
    rfl
  · exact (readsAs_pieces pattern).unique h
  · rintro rfl
    exact readsAs_pieces pattern
  · exact (readsAs_pieces pattern).source_eq

/-- Five letters in a row are a name of four and one more letter: `d` is a name of its own, `Y` is
none. -/
theorem five_letters_around_mark : ∃ t : Instant, IsMark 'T' ∧
    t.civil = { year := 2024, month := 12, day := 31 } ∧
    t.format "dddddTYYYYY".toList = "Tuesday2".toList ++ 'T' :: "2024Y".toList := by
  let t : Instant := ⟨20088, 0, 0, by decide, by decide, by decide, by decide⟩
  have hmark : IsMark 'T' := by decide
  have hday : t.format "ddddd".toList = "Tuesday2".toList := by decide +kernel
  have hyear : t.format "YYYYY".toList = "2024Y".toList := by decide +kernel
  refine ⟨t, hmark, by decide, ?_⟩
  rw [← hday, ← hyear]
  exact patterns_are_cut_at_marks.1 t "ddddd".toList "YYYYY".toList 'T' hmark

end FormulaTable.Calendar
