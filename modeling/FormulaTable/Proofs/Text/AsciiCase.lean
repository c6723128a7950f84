import FormulaTable.Text.Case
import FormulaTable.Text.Space

/-!
# ASCII letters in another case

What does not tell the letters `A` to `Z` from their small forms is the same for all texts that differ
only in the case of ASCII letters; among that are the small letters of a text.
-/

namespace FormulaTable.Text

variable {β : Type} {c : Char} {s before : List Char}

/-! ## Characters -/

/-- The capital letters of ASCII. -/
def asciiCapitals : List Char := (List.range 26).map fun n => Char.ofNat (65 + n)

/-- Only the capital letters have another small form. -/
theorem mem_asciiCapitals (h : c.toLower ≠ c) : c ∈ asciiCapitals := by
  unfold Char.toLower at h
  split at h
  · next hrange =>
    rw [ge_iff_le, UInt32.le_iff_toNat_le, UInt32.le_iff_toNat_le] at hrange
    have hrange : 65 ≤ c.toNat ∧ c.toNat ≤ 90 := hrange
    refine List.mem_map.mpr ⟨c.toNat - 65, List.mem_range.mpr (by omega), ?_⟩
    rw [Nat.add_sub_cancel' hrange.1, Char.ofNat_toNat]
  · exact absurd rfl h

/-- What is the same for the capital letters and their small forms is the same for all characters. -/
theorem apply_toLower [DecidableEq β] {f : Char → β}
    (h : (asciiCapitals.all fun c => f c.toLower = f c) = true) (c : Char) : f c.toLower = f c := by
  by_cases hc : c.toLower = c
  · rw [hc]
  · exact of_decide_eq_true (List.all_eq_true.mp h c (mem_asciiCapitals hc))

theorem isSpace_toLower : ∀ c : Char, isSpace c.toLower = isSpace c :=
  apply_toLower (by decide)

theorem isCased_toLower : ∀ c : Char, isCased c.toLower = isCased c :=
  apply_toLower (by decide)

theorem lowerChar_toLower : ∀ c : Char, lowerChar c.toLower = lowerChar c :=
  apply_toLower (by decide)

theorem toLower_toLower : ∀ c : Char, c.toLower.toLower = c.toLower :=
  apply_toLower (by decide)

theorem isAlpha_of_mem (h : c ∈ asciiCapitals) : c.isAlpha = true ∧ c.toLower.isAlpha = true := by
  have hall : (asciiCapitals.all fun c => c.isAlpha && c.toLower.isAlpha) = true := by decide
  exact Bool.and_eq_true_iff.mp (List.all_eq_true.mp hall c h)

/-- What is no ASCII letter is the small form of itself only. -/
theorem toLower_eq_iff {d : Char} (hd : d.isAlpha = false) : c.toLower = d ↔ c = d := by
  by_cases hc : c.toLower = c
  · rw [hc]
  · obtain ⟨hcapital, hsmall⟩ := isAlpha_of_mem (mem_asciiCapitals hc)
    refine iff_of_false ?_ ?_
    · rintro rfl
      rw [hsmall] at hd
      cases hd
    · rintro rfl
      rw [hcapital] at hd
      cases hd

theorem eq_of_toLower_eq {c' : Char} (hc : c'.toLower = c.toLower) (h : c.isAlpha = false) :
    c' = c := by
  rw [(toLower_eq_iff h).mpr rfl] at hc
  exact (toLower_eq_iff h).mp hc

/-- What lies in a gap of the ranges lies in none of them. -/
theorem inRanges_eq_false {ranges : List (Nat × Nat)} {low high n : Nat}
    (h : (ranges.all fun range => range.2.blt low || high.blt range.1) = true) (hlow : low ≤ n)
    (hhigh : n ≤ high) : inRanges ranges n = false := by
  rw [inRanges, List.any_eq_false]
  rintro ⟨first, last⟩ hrange hmem
  have hgap := List.all_eq_true.mp h _ hrange
  simp only [Bool.or_eq_true, Nat.blt_eq, Bool.and_eq_true, decide_eq_true_eq] at hgap hmem
  omega

/-- No letter of ASCII is ignorable. -/
theorem isCaseIgnorable_of_isAlpha (h : c.isAlpha = true) : isCaseIgnorable c = false := by
  have hcapitals : (caseIgnorableRanges.all fun range =>
      range.2.blt 65 || Nat.blt 90 range.1) = true := by decide +kernel
  have hsmall : (caseIgnorableRanges.all fun range =>
      range.2.blt 97 || Nat.blt 122 range.1) = true := by decide +kernel
  rcases Bool.or_eq_true_iff.mp h with hupper | hlower
  · obtain ⟨hlow, hhigh⟩ := of_decide_eq_true hupper
    exact inRanges_eq_false hcapitals (UInt32.le_iff_toNat_le.mp hlow)
      (UInt32.le_iff_toNat_le.mp hhigh)
  · obtain ⟨hlow, hhigh⟩ := Bool.and_eq_true_iff.mp hlower
    exact inRanges_eq_false hsmall (UInt32.le_iff_toNat_le.mp (of_decide_eq_true hlow))
      (UInt32.le_iff_toNat_le.mp (of_decide_eq_true hhigh))

theorem isCaseIgnorable_toLower (c : Char) : isCaseIgnorable c.toLower = isCaseIgnorable c := by
  by_cases hc : c.toLower = c
  · rw [hc]
  · obtain ⟨hcapital, hsmall⟩ := isAlpha_of_mem (mem_asciiCapitals hc)
    rw [isCaseIgnorable_of_isAlpha hcapital, isCaseIgnorable_of_isAlpha hsmall]

/-! ## Texts -/

/-- What is the same for a text and its small letters is the same for texts with the same small
letters. -/
theorem apply_eq_of_toLower_eq {f : List Char → β} {t : List Char}
    (hf : ∀ s, f (s.map Char.toLower) = f s) (h : s.map Char.toLower = t.map Char.toLower) :
    f s = f t := by
  rw [← hf s, h, hf t]

theorem dropWhile_toLower {p : Char → Bool} (hp : ∀ c, p c.toLower = p c) (s : List Char) :
    (s.map Char.toLower).dropWhile p = (s.dropWhile p).map Char.toLower := by
  rw [List.dropWhile_map]
  exact congrArg (fun q => (s.dropWhile q).map Char.toLower) (funext hp)

theorem takeWhile_toLower {p : Char → Bool} (hp : ∀ c, p c.toLower = p c) (s : List Char) :
    (s.map Char.toLower).takeWhile p = (s.takeWhile p).map Char.toLower := by
  rw [List.takeWhile_map]
  exact congrArg (fun q => (s.takeWhile q).map Char.toLower) (funext hp)

theorem startsCased_toLower (s : List Char) :
    startsCased (s.map Char.toLower) = startsCased s := by
  unfold startsCased
  rw [dropWhile_toLower isCaseIgnorable_toLower]
  cases s.dropWhile isCaseIgnorable with
  | nil => rfl
  | cons c rest => exact isCased_toLower c

theorem lowerAfter_toLower (before s : List Char) :
    lowerAfter (before.map Char.toLower) (s.map Char.toLower) = lowerAfter before s := by
  induction s generalizing before with
  | nil => rfl
  | cons c rest ih =>
      have hsigma : c.toLower = 'Σ' ↔ c = 'Σ' := toLower_eq_iff (by decide)
      rw [List.map_cons, lowerAfter, lowerAfter, ← List.map_cons, ih, lowerChar_toLower]
      unfold endsWord
      rw [startsCased_toLower, startsCased_toLower]
      simp only [hsigma]

/-- **The small letters of a text do not depend on the case of its ASCII letters.** -/
theorem lower_toLower (s : List Char) : lower (s.map Char.toLower) = lower s :=
  lowerAfter_toLower [] s

/-- Names that differ in the case of ASCII letters are the same name. -/
theorem fold_eq_of_toLower_eq {name name' : List Char}
    (h : name.map Char.toLower = name'.map Char.toLower) :
    fold (String.ofList name) = fold (String.ofList name') := by
  unfold fold
  rw [String.toList_ofList, String.toList_ofList, apply_eq_of_toLower_eq lower_toLower h]

end FormulaTable.Text
