import FormulaTable.Text.Space

/-!
# White space around a text

What starts and ends with other characters is found again when the white space around it is taken off.
-/

namespace FormulaTable.Text

variable {before after s : List Char}

/-- Nothing is taken off a text that starts with something else than white space. -/
theorem trimStart_cons {c : Char} (h : isSpace c = false) (rest : List Char) :
    trimStart (c :: rest) = c :: rest :=
  List.dropWhile_cons_of_neg (by rw [h]; exact Bool.false_ne_true)

/-- Of white space in front of such a text, all is taken off. -/
theorem trimStart_append (hbefore : before.all isSpace = true) (hne : s ≠ [])
    (hfirst : ∀ c ∈ s.head?, isSpace c = false) (rest : List Char) :
    trimStart (before ++ (s ++ rest)) = s ++ rest := by
  obtain ⟨c, t, rfl⟩ := List.exists_cons_of_ne_nil hne
  have hskip : trimStart (before ++ (c :: t ++ rest)) = trimStart (c :: t ++ rest) :=
    List.dropWhile_append_of_pos (List.all_eq_true.mp hbefore)
  rw [hskip]
  exact trimStart_cons (hfirst c rfl) (t ++ rest)

/-- **A text without white space at its ends is what is left of it with white space around.** -/
theorem trim_around (hbefore : before.all isSpace = true) (hafter : after.all isSpace = true)
    (hne : s ≠ []) (hfirst : ∀ c ∈ s.head?, isSpace c = false)
    (hlast : ∀ c ∈ s.getLast?, isSpace c = false) : trim (before ++ s ++ after) = s := by
  have hend : trimStart (after.reverse ++ (s.reverse ++ [])) = s.reverse ++ [] := by
    refine trimStart_append (by rwa [List.all_reverse]) (List.reverse_ne_nil_iff.mpr hne) ?_ []
    rwa [List.head?_reverse]
  rw [List.append_nil, ← List.reverse_append] at hend
  unfold trim
  rw [List.append_assoc, trimStart_append hbefore hne hfirst]
  exact (congrArg List.reverse hend).trans (List.reverse_reverse s)

end FormulaTable.Text
