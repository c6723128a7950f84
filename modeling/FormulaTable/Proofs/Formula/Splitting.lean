import FormulaTable.Formula.Library.Text
import Mathlib.Data.List.Infix

/-!
# Splitting and replacing

A text is cut where a separator occurs in it, from the left and without overlaps. The parts are what
`split` gives, and with another text between them what `replace` gives; `replaceFirst` puts that text
between the first part and the others only.
-/

namespace FormulaTable.Text

variable {c : Char} {separator replacement s rest part : List Char} {parts : List (List Char)}

/-! ## Cutting -/

/-- The first of the parts between the occurrences of a separator in a text, and the others. -/
inductive Cuts (separator : List Char) : List Char → List Char → List (List Char) → Prop where
  | done : Cuts separator [] [] []
  | char {c : Char} {rest part : List Char} {parts : List (List Char)}
      (hnone : ¬ separator <+: c :: rest) (h : Cuts separator rest part parts) :
      Cuts separator (c :: rest) (c :: part) parts
  | separator {rest part : List Char} {parts : List (List Char)}
      (h : Cuts separator rest part parts) :
      Cuts separator (separator ++ rest) [] (part :: parts)

/-- Every text can be cut at a separator that is not empty. -/
theorem exists_cuts (hne : separator ≠ []) (s : List Char) :
    ∃ part parts, Cuts separator s part parts := by
  -- on the length, since a separator has any number of characters
  induction hlength : s.length using Nat.strong_induction_on generalizing s with
  | _ length ih =>
  cases s with
  | nil => exact ⟨[], [], .done⟩
  | cons c rest =>
      by_cases hstart : separator <+: c :: rest
      · obtain ⟨rest', hrest⟩ := hstart
        have hpos := List.length_pos_iff.mpr hne
        rw [← hrest, List.length_append] at hlength
        obtain ⟨part, parts, h⟩ := ih rest'.length (by omega) rest' rfl
        rw [← hrest]
        exact ⟨[], part :: parts, .separator h⟩
      · rw [List.length_cons] at hlength
        obtain ⟨part, parts, h⟩ := ih rest.length (by omega) rest rfl
        exact ⟨c :: part, parts, .char hstart h⟩

/-! ## Joining -/

theorem join_singleton (between part : List Char) : join between [part] = part :=
  List.intercalate_singleton

theorem join_cons_cons (between part part' : List Char) (parts : List (List Char)) :
    join between (part :: part' :: parts) = part ++ (between ++ join between (part' :: parts)) := by
  rw [join, List.intercalate_cons_cons, List.append_assoc]
  rfl

theorem join_cons_head (between part : List Char) (c : Char) (parts : List (List Char)) :
    join between ((c :: part) :: parts) = c :: join between (part :: parts) := by
  cases parts with
  | nil => rw [join_singleton, join_singleton]
  | cons part' parts =>
      rw [join_cons_cons, join_cons_cons]
      rfl

namespace Cuts

/-- The parts with the separator between them are the text. -/
theorem join_eq (h : Cuts separator s part parts) : join separator (part :: parts) = s := by
  induction h with
  | done => exact join_singleton separator []
  | char _ _ ih => rw [join_cons_head, ih]
  | separator _ ih => rw [join_cons_cons, ih, List.nil_append]

/-- The text starts with the first part. -/
theorem part_prefix (h : Cuts separator s part parts) : part <+: s := by
  induction h with
  | done => exact List.prefix_rfl
  | char _ _ ih => exact List.cons_prefix_cons.mpr ⟨rfl, ih⟩
  | separator => exact List.nil_prefix

/-- The separator occurs in no part. -/
theorem not_infix (hne : separator ≠ []) (h : Cuts separator s part parts) :
    ∀ p ∈ part :: parts, ¬ separator <:+: p := by
  have hnil : ¬ separator <:+: [] := fun hinfix => hne (List.infix_nil.mp hinfix)
  induction h with
  | done => exact List.forall_mem_singleton.mpr hnil
  | @char c rest part parts hnone h ih =>
      refine List.forall_mem_cons.mpr ⟨fun hinfix => ?_, (List.forall_mem_cons.mp ih).2⟩
      rcases List.infix_cons_iff.mp hinfix with hstart | hinfix
      · exact hnone (hstart.trans (List.cons_prefix_cons.mpr ⟨rfl, h.part_prefix⟩))
      · exact (List.forall_mem_cons.mp ih).1 hinfix
  | separator _ ih => exact List.forall_mem_cons.mpr ⟨hnil, ih⟩

/-- Only a text without the separator is a single part. -/
theorem infix_iff (hne : separator ≠ []) (h : Cuts separator s part parts) :
    separator <:+: s ↔ parts ≠ [] := by
  cases parts with
  | nil =>
      have hpart : part = s := by rw [← h.join_eq, join_singleton]
      rw [← hpart]
      exact iff_of_false (h.not_infix hne part List.mem_cons_self) (not_not_intro rfl)
  | cons part' parts =>
      rw [← h.join_eq, join_cons_cons]
      exact iff_of_true ⟨part, join separator (part' :: parts), List.append_assoc _ _ _⟩
        (List.cons_ne_nil _ _)

end Cuts

/-! ## Splitting -/

theorem isPrefixOf_append (separator rest : List Char) :
    separator.isPrefixOf (separator ++ rest) = true :=
  List.isPrefixOf_iff_prefix.mpr (List.prefix_append separator rest)

/-- Characters of an occurrence are passed over. -/
theorem splitAfter_eq_drop (skip : Nat) (s : List Char) :
    splitAfter separator skip s = splitAfter separator 0 (s.drop skip) := by
  induction s generalizing skip with
  | nil => rw [List.drop_nil, splitAfter, splitAfter]
  | cons c rest ih =>
      cases skip with
      | zero => rfl
      | succ skip => rw [splitAfter, ih, List.drop_succ_cons]

theorem splitAfter_separator (hne : separator ≠ []) (rest : List Char) :
    splitAfter separator 0 (separator ++ rest) = [] :: splitAfter separator 0 rest := by
  obtain ⟨c, separator, rfl⟩ := List.exists_cons_of_ne_nil hne
  have hstart : (c :: separator).isPrefixOf (c :: (separator ++ rest)) = true :=
    isPrefixOf_append (c :: separator) rest
  rw [List.cons_append, splitAfter, if_pos hstart, splitAfter_eq_drop, List.length_cons,
    Nat.add_sub_cancel, List.drop_left]

theorem splitAfter_char (hnone : ¬ separator <+: c :: rest) :
    splitAfter separator 0 (c :: rest) = consHead c (splitAfter separator 0 rest) := by
  rw [splitAfter, if_neg fun h => hnone (List.isPrefixOf_iff_prefix.mp h)]

/-- A text is split into its parts. -/
theorem Cuts.split_eq (hne : separator ≠ []) (h : Cuts separator s part parts) :
    split separator s = part :: parts := by
  rw [split, if_neg (by rwa [List.isEmpty_iff])]
  induction h with
  | done => rw [splitAfter]
  | char hnone _ ih =>
      rw [splitAfter_char hnone, ih]
      rfl
  | separator _ ih => rw [splitAfter_separator hne, ih]

/-- With nothing as a separator the parts are the characters. -/
theorem join_split_nil (s : List Char) : join [] (split [] s) = s := by
  rw [split, if_pos List.isEmpty_nil]
  induction s with
  | nil => rfl
  | cons c s ih =>
      rw [List.map_cons, join_cons_head]
      cases s with
      | nil => rw [List.map_nil, join_singleton]
      | cons d s =>
          rw [List.map_cons] at ih ⊢
          rw [join_cons_cons, List.nil_append, List.nil_append, ih]

/-! ## Replacing -/

theorem join_consHead (between : List Char) (c : Char) (hne : parts ≠ []) :
    join between (consHead c parts) = c :: join between parts := by
  obtain ⟨part, parts, rfl⟩ := List.exists_cons_of_ne_nil hne
  exact join_cons_head between part c parts

theorem join_nil_cons (between : List Char) (hne : parts ≠ []) :
    join between ([] :: parts) = between ++ join between parts := by
  obtain ⟨part, parts, rfl⟩ := List.exists_cons_of_ne_nil hne
  exact join_cons_cons between [] part parts

theorem splitAfter_ne_nil (separator : List Char) (skip : Nat) (s : List Char) :
    splitAfter separator skip s ≠ [] := by
  induction s generalizing skip with
  | nil =>
      rw [splitAfter]
      exact List.cons_ne_nil _ _
  | cons c rest ih =>
      cases skip with
      | succ skip => exact ih skip
      | zero =>
          rw [splitAfter]
          split
          · exact List.cons_ne_nil _ _
          · obtain ⟨part, parts, hparts⟩ := List.exists_cons_of_ne_nil (ih 0)
            rw [hparts, consHead]
            exact List.cons_ne_nil _ _

/-- The occurrences are found in the same way as for a split. -/
theorem replaceAfter_eq_join (skip : Nat) (s : List Char) :
    replaceAfter separator replacement skip s =
      join replacement (splitAfter separator skip s) := by
  induction s generalizing skip with
  | nil => rw [replaceAfter, splitAfter, join_singleton]
  | cons c rest ih =>
      cases skip with
      | succ skip => exact ih skip
      | zero =>
          rw [replaceAfter, splitAfter]
          split
          · rw [join_nil_cons _ (splitAfter_ne_nil _ _ _), ih]
          · rw [join_consHead _ _ (splitAfter_ne_nil _ _ _), ih]

/-- To replace is to join the parts with the other text. -/
theorem replace_eq_join (hne : separator ≠ []) (replacement s : List Char) :
    replace separator replacement s = join replacement (split separator s) := by
  have hempty : ¬ separator.isEmpty = true := by rwa [List.isEmpty_iff]
  rw [replace, split, if_neg hempty, if_neg hempty, replaceAfter_eq_join]

/-- The first part ends where the separator first occurs. -/
theorem Cuts.indexOf?_eq (hne : separator ≠ []) (h : Cuts separator s part parts) :
    indexOf? separator s = if parts = [] then none else some part.length := by
  induction h with
  | done =>
      rw [indexOf?, if_neg (by rwa [List.isEmpty_iff])]
      rfl
  | char hnone _ ih =>
      rw [indexOf?, if_neg fun h => hnone (List.isPrefixOf_iff_prefix.mp h), ih]
      split
      · rfl
      · rfl
  | @separator rest part parts _ _ =>
      rw [if_neg (List.cons_ne_nil _ _)]
      obtain ⟨c, separator, rfl⟩ := List.exists_cons_of_ne_nil hne
      rw [List.cons_append, indexOf?, ← List.cons_append, if_pos (isPrefixOf_append _ _)]
      rfl

/-- To replace the first occurrence is to put the other text after the first part. -/
theorem Cuts.replaceFirst_eq (hne : separator ≠ []) (h : Cuts separator s part parts) :
    replaceFirst separator replacement s =
      if parts = [] then s else part ++ (replacement ++ join separator parts) := by
  rw [replaceFirst, if_neg (by rwa [List.isEmpty_iff]), h.indexOf?_eq hne]
  cases parts with
  | nil => rfl
  | cons part' parts =>
      rw [if_neg (List.cons_ne_nil _ _), if_neg (List.cons_ne_nil _ _)]
      dsimp only
      rw [← h.join_eq, join_cons_cons, List.take_left, List.drop_length_add_append, List.drop_left]

end FormulaTable.Text

namespace FormulaTable.Formula.Library

open Text (Cuts join exists_cuts replace_eq_join)

/-! ## The functions of formulas -/

theorem ofList_join (between : Value) (parts : List (List Char)) :
    String.ofList (join between.chars parts) =
      between.toText.intercalate (parts.map String.ofList) := by
  rw [← String.toList_inj, String.toList_ofList, String.toList_intercalate, List.map_map]
  simp only [Function.comp_def, String.toList_ofList, List.map_id']
  rfl

theorem ofChars_chars (v : Value) : Value.ofChars v.chars = .text v.toText := by
  rw [Value.ofChars, Value.chars, String.ofList_toList]

section Cuts

variable {text separator replacement : Value} {part : List Char} {parts : List (List Char)}

/-- The items of a split text are its parts. -/
theorem split_of_cuts (hne : separator.chars ≠ [])
    (h : Cuts separator.chars text.chars part parts) :
    split [text, separator] = .options ((part :: parts).map String.ofList) := by
  rw [← h.split_eq hne]
  rfl

theorem replace_of_cuts (hne : separator.chars ≠ [])
    (h : Cuts separator.chars text.chars part parts) :
    replace [text, separator, replacement] =
      .text (replacement.toText.intercalate ((part :: parts).map String.ofList)) := by
  rw [← ofList_join, ← h.split_eq hne, ← replace_eq_join hne]
  rfl

theorem replaceFirst_of_cuts (hne : separator.chars ≠ [])
    (h : Cuts separator.chars text.chars part parts) :
    replaceFirst [text, separator, replacement] =
      .text (if separator.chars <:+: text.chars then
        String.ofList part ++ replacement.toText ++
          separator.toText.intercalate (parts.map String.ofList) else text.toText) := by
  change Value.ofChars (Text.replaceFirst separator.chars replacement.chars text.chars) = _
  rw [h.replaceFirst_eq hne]
  by_cases hinfix : separator.chars <:+: text.chars
  · rw [if_pos hinfix, if_neg ((h.infix_iff hne).mp hinfix), Value.ofChars, String.ofList_append,
      String.ofList_append, ofList_join, Value.chars, String.ofList_toList, String.append_assoc]
  · have hsingle : parts = [] := by_contra fun hmore => hinfix ((h.infix_iff hne).mpr hmore)
    rw [if_neg hinfix, if_pos hsingle, ofChars_chars]

end Cuts

/-- **Texts are split, replaced and replaced once at the same places.** With the separator between
them the items of a split text are the text, and with another text between them the text after a
replacement; a single replacement has that text after the first item only. No item has the separator
in it. An empty separator splits a text into its characters and is not replaced. -/
theorem split_and_replace_agree (text separator replacement : Value) :
    (separator.toText ≠ "" → ∃ first others,
        split [text, separator] = .options (first :: others) ∧
        separator.toText.intercalate (first :: others) = text.toText ∧
        (∀ item ∈ first :: others, ¬ separator.chars <:+: item.toList) ∧
        replace [text, separator, replacement] =
          .text (replacement.toText.intercalate (first :: others)) ∧
        replaceFirst [text, separator, replacement] =
          .text (if separator.chars <:+: text.chars then
            first ++ replacement.toText ++ separator.toText.intercalate others else text.toText)) ∧
      (separator.toText = "" →
        replace [text, separator, replacement] = .text text.toText ∧
        replaceFirst [text, separator, replacement] = .text text.toText ∧
        ∃ items, split [text, separator] = .options items ∧
          "".intercalate items = text.toText) := by
  constructor
  · intro hempty
    have hne : separator.chars ≠ [] := fun hnil => hempty (String.toList_eq_nil_iff.mp hnil)
    obtain ⟨part, parts, h⟩ := exists_cuts hne text.chars
    refine ⟨String.ofList part, parts.map String.ofList, split_of_cuts hne h, ?_, ?_,
      replace_of_cuts hne h, replaceFirst_of_cuts hne h⟩
    · rw [← List.map_cons, ← ofList_join, h.join_eq, Value.chars, String.ofList_toList]
    · rw [← List.map_cons]
      refine List.forall_mem_map.mpr fun p hp => ?_
      rw [String.toList_ofList]
      exact h.not_infix hne p hp
  · intro hempty
    have hnil : separator.chars = [] := String.toList_eq_nil_iff.mpr hempty
    refine ⟨?_, ?_, _, rfl, ?_⟩
    · change Value.ofChars (Text.replace separator.chars replacement.chars text.chars) = _
      rw [hnil, Text.replace, if_pos List.isEmpty_nil, ofChars_chars]
    · change Value.ofChars (Text.replaceFirst separator.chars replacement.chars text.chars) = _
      rw [hnil, Text.replaceFirst, if_pos List.isEmpty_nil, ofChars_chars]
    · have hsplit := congrArg String.ofList (Text.join_split_nil text.chars)
      rw [← hnil, ofList_join, hempty] at hsplit
      exact hsplit.trans String.ofList_toList

/-- A separator that overlaps itself in the text occurs twice from the left. -/
theorem overlapping_separator :
    (Value.text "XX").toText ≠ "" ∧ split [.text "aXXXXXb", .text "XX"] = .options ["a", "", "Xb"] ∧
      replace [.text "aXXXXXb", .text "XX", .text "X"] = .text "aXXXb" ∧
      replaceFirst [.text "aXXXXXb", .text "XX", .text "X"] = .text "aXXXXb" := by
  have hne : (Value.text "XX").toText ≠ "" := by decide
  have hsplit : split [.text "aXXXXXb", .text "XX"] = .options ["a", "", "Xb"] := by decide
  obtain ⟨first, others, hitems, -, -, hreplace, hfirst⟩ :=
    (split_and_replace_agree (.text "aXXXXXb") (.text "XX") (.text "X")).1 hne
  obtain ⟨rfl, rfl⟩ := List.cons.inj (Value.options.inj (hsplit.symm.trans hitems))
  exact ⟨hne, hsplit, hreplace.trans (by decide), hfirst.trans (by decide)⟩

end FormulaTable.Formula.Library
