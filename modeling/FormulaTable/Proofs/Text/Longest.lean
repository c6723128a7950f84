import Mathlib.Data.List.Infix

/-!
# The longest of several beginnings

Of all texts of a kind that a text starts with, at most one is longest, and the others are beginnings
of it. In a table with longer texts before shorter ones it is the first that fits.
-/

namespace FormulaTable.Text

variable {p : List Char → Prop} {s l l' : List Char}

/-- Of the texts of a kind `p` that the text `s` starts with, `l` is the longest. -/
structure IsLongest (p : List Char → Prop) (s l : List Char) : Prop where
  holds : p l
  starts : l <+: s
  longest : ∀ l', p l' → l' <+: s → l'.length ≤ l.length

namespace IsLongest

/-- It starts with all others of them. -/
theorem starts_with (h : IsLongest p s l) (hl' : p l') (hstarts : l' <+: s) : l' <+: l :=
  List.prefix_of_prefix_length_le hstarts h.starts (h.longest l' hl' hstarts)

/-- There is only one. -/
theorem eq (h : IsLongest p s l) (h' : IsLongest p s l') : l = l' :=
  (h'.starts_with h.holds h.starts).eq_of_length_le (h.longest l' h'.holds h'.starts)

end IsLongest

/-- In a table with longer texts first, the first that fits is the longest. -/
theorem isLongest_of_find? {α : Type} {table : List (List Char × α)} {e : List Char × α}
    (hdescend : table.Pairwise fun a b => b.1.length ≤ a.1.length)
    (h : table.find? (fun e => e.1.isPrefixOf s) = some e) :
    IsLongest (· ∈ table.map Prod.fst) s e.1 := by
  obtain ⟨hstarts, before, after, rfl, hbefore⟩ := List.find?_eq_some_iff_append.mp h
  have hmem := List.mem_map_of_mem (f := Prod.fst) (List.mem_of_find?_eq_some h)
  refine ⟨hmem, List.isPrefixOf_iff_prefix.mp hstarts, fun l' hl' hstarts' => ?_⟩
  obtain ⟨e', he', rfl⟩ := List.mem_map.mp hl'
  rcases List.mem_append.mp he' with hearlier | hlater
  · -- what comes earlier in the table does not fit
    have hnot := hbefore e' hearlier
    rw [List.isPrefixOf_iff_prefix.mpr hstarts'] at hnot
    cases hnot
  · rcases List.mem_cons.mp hlater with rfl | hlater
    · exact Nat.le_refl _
    · exact (List.pairwise_cons.mp (List.pairwise_append.mp hdescend).2.1).1 e' hlater

/-- A text without a character that stands in another ends before it. -/
theorem prefix_of_prefix_append_cons {c : Char} {rest : List Char} (h : l <+: s ++ c :: rest)
    (hc : c ∉ l) : l <+: s := by
  rcases Nat.lt_or_ge s.length l.length with hlt | hle
  · have hupto : s ++ [c] <+: s ++ c :: rest := ⟨rest, by rw [List.append_assoc]; rfl⟩
    have hreach : s ++ [c] <+: l :=
      List.prefix_of_prefix_length_le hupto h (by rw [List.length_append]; exact hlt)
    exact absurd (hreach.subset (List.mem_append_right s (List.mem_singleton_self c))) hc
  · exact List.prefix_of_prefix_length_le h (List.prefix_append s _) hle

end FormulaTable.Text
