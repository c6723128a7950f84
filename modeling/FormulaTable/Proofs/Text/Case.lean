import FormulaTable.Text.Case

/-!
# Small letters stay small

No letter that a letter is lowered to is lowered any further: the runs of the table lead from capital
letters to letters outside all runs. So lowering a text twice is lowering it once, and the names that
agree in small letters agree with the small letters themselves.
-/

namespace FormulaTable.Text

/-! ## Runs of the table -/

namespace CaseRun

/-- The letter with this code is in the run. -/
def Covers (r : CaseRun) (n : Nat) : Prop :=
  r.first ≤ n ∧ n ≤ r.last ∧ (n - r.first) % r.stride = 0

/-- The first letter that the run leads to. -/
def lowest (r : CaseRun) : Nat := (r.first + r.shift).toNat

/-- The last letter that the run leads to. -/
def highest (r : CaseRun) : Nat := (r.last + r.shift).toNat

/-- The letters that `r` leads to are outside the run `s`, below or above it or in its gaps. -/
def avoids (r s : CaseRun) : Bool :=
  Nat.blt r.highest s.first || Nat.blt s.last r.lowest ||
    (s.stride == 2 && (r.stride == 2 || r.first == r.last) && r.lowest % 2 != s.first % 2)

/-- The run leads to letters above the ASCII capitals, and not to the dotted capital I. -/
def lowers (r : CaseRun) : Bool :=
  90 < r.lowest && (r.highest < 0x130 || 0x130 < r.lowest) &&
    (r.highest < 0xD800 || (0xDFFF < r.lowest && r.highest < 0x110000))

theorem map?_eq_none_iff {r : CaseRun} {n : Nat} : r.map? n = none ↔ ¬ r.Covers n := by
  unfold map? Covers
  split
  · rename_i h
    exact ⟨nofun, fun hnot => absurd h hnot⟩
  · rename_i h
    exact ⟨fun _ => h, fun _ => rfl⟩

theorem map?_eq_some {r : CaseRun} {n : Nat} {c : Char} (h : r.map? n = some c) :
    r.Covers n ∧ c = Char.ofNat (n + r.shift).toNat := by
  unfold map? at h
  split at h
  · rename_i hcovers
    cases h
    exact ⟨hcovers, rfl⟩
  · cases h

/-- A letter that `r` leads to is outside a run that it avoids. -/
theorem not_covers_of_avoids {r s : CaseRun} (h : r.avoids s = true) {n : Nat} (hn : r.Covers n)
    (hlowest : 0 < r.lowest) : ¬ s.Covers (n + r.shift).toNat := by
  simp only [avoids, Bool.or_eq_true, Bool.and_eq_true, Nat.blt_eq, beq_iff_eq, bne_iff_ne,
    lowest, highest] at h hlowest
  rintro ⟨hfirst, hlast, hstride⟩
  obtain ⟨hfirst', hlast', hstride'⟩ := hn
  rcases h with (hbelow | habove) | ⟨⟨htwo, hgap⟩, hodd⟩
  · omega
  · omega
  · rw [htwo] at hstride
    rcases hgap with htwo' | hone
    · rw [htwo'] at hstride'
      omega
    · omega

end CaseRun

/-- The table leads out of all its runs. -/
theorem lowerRuns_avoids : (lowerRuns.all fun r => lowerRuns.all r.avoids) = true := by
  decide +kernel

theorem lowerRuns_lowers : lowerRuns.all CaseRun.lowers = true := by
  decide

/-! ## Small letters -/

/-- The letter is its own small form. -/
def IsSmall (c : Char) : Prop := lowerChar c = [c]

instance (c : Char) : Decidable (IsSmall c) := inferInstanceAs (Decidable (lowerChar c = [c]))

/-- Letters above ASCII that are in no run are small, apart from the dotted capital I. -/
theorem isSmall_of_not_covers {c : Char} (hascii : 128 ≤ c.toNat) (hdotted : c ≠ '\u0130')
    (h : ∀ r ∈ lowerRuns, ¬ r.Covers c.toNat) : IsSmall c := by
  have hnone : lowerRuns.findSome? (·.map? c.toNat) = none := by
    rw [List.findSome?_eq_none_iff]
    intro r hr
    exact CaseRun.map?_eq_none_iff.mpr (h r hr)
  rw [IsSmall, lowerChar, if_neg (by omega), if_neg hdotted, hnone, Option.getD_none]

/-- The small forms of ASCII letters are small, as are the letters after the ASCII capitals. -/
theorem isSmall_ascii :
    ∀ n < 128, IsSmall (Char.ofNat n).toLower ∧ (90 < n → IsSmall (Char.ofNat n)) := by
  decide

/-- What a run leads to is small. -/
theorem isSmall_of_map? {r : CaseRun} (hr : r ∈ lowerRuns) {n : Nat} {c : Char}
    (h : r.map? n = some c) : IsSmall c := by
  obtain ⟨hcovers, rfl⟩ := CaseRun.map?_eq_some h
  have hfirst := hcovers.1
  have hlast := hcovers.2.1
  have hlowers := List.all_eq_true.mp lowerRuns_lowers r hr
  simp only [CaseRun.lowers, Bool.and_eq_true, Bool.or_eq_true, decide_eq_true_eq] at hlowers
  rw [CaseRun.lowest, CaseRun.highest] at hlowers
  obtain ⟨⟨habove, hdotted⟩, hvalid⟩ := hlowers
  have hchar : (n + r.shift).toNat.isValidChar := by
    unfold Nat.isValidChar
    omega
  have hcode : (Char.ofNat (n + r.shift).toNat).toNat = (n + r.shift).toNat := by
    rw [Char.ofNat, dif_pos hchar]
    rfl
  by_cases hascii : (n + r.shift).toNat < 128
  · apply (isSmall_ascii _ hascii).2
    omega
  · refine isSmall_of_not_covers (by omega) ?_ ?_
    · intro hc
      rw [hc] at hcode
      have hdot : 0x130 = (n + r.shift).toNat := hcode
      omega
    · intro s hs
      have havoids := List.all_eq_true.mp (List.all_eq_true.mp lowerRuns_avoids r hr) s hs
      rw [hcode]
      refine CaseRun.not_covers_of_avoids havoids hcovers ?_
      rw [CaseRun.lowest]
      omega

/-- What a letter is lowered to is small. -/
theorem isSmall_of_mem_lowerChar {c d : Char} (h : d ∈ lowerChar c) : IsSmall d := by
  unfold lowerChar at h
  split at h
  · rename_i hascii
    rw [List.mem_singleton] at h
    rw [h, ← Char.ofNat_toNat c]
    exact (isSmall_ascii c.toNat hascii).1
  · split at h
    · rw [List.mem_cons, List.mem_singleton] at h
      rcases h with rfl | rfl <;> decide
    · rename_i hascii hdotted
      rw [List.mem_singleton] at h
      rw [h]
      cases hmap : lowerRuns.findSome? (·.map? c.toNat) with
      | some d =>
          obtain ⟨r, hr, hd⟩ := List.exists_of_findSome?_eq_some hmap
          exact isSmall_of_map? hr hd
      | none =>
          rw [List.findSome?_eq_none_iff] at hmap
          refine isSmall_of_not_covers (Nat.le_of_not_lt hascii) hdotted ?_
          intro r hr
          exact CaseRun.map?_eq_none_iff.mp (hmap r hr)

/-! ## Small texts -/

theorem isSmall_of_mem_lowerAfter {before s : List Char} {c : Char} (h : c ∈ lowerAfter before s) :
    IsSmall c := by
  induction s generalizing before with
  | nil => cases h
  | cons d rest ih =>
      rw [lowerAfter, List.mem_append] at h
      rcases h with h | h
      · by_cases hsigma : d = 'Σ'
        · rw [if_pos hsigma, List.mem_singleton] at h
          rw [h]
          split <;> decide
        · rw [if_neg hsigma] at h
          exact isSmall_of_mem_lowerChar h
      · exact ih h

theorem lowerAfter_eq_self {before s : List Char} (h : ∀ c ∈ s, IsSmall c) :
    lowerAfter before s = s := by
  induction s generalizing before with
  | nil => rfl
  | cons c rest ih =>
      obtain ⟨hc, hrest⟩ := List.forall_mem_cons.mp h
      have hsigma : c ≠ 'Σ' := by
        rintro rfl
        exact absurd hc (by decide)
      rw [lowerAfter, if_neg hsigma, hc, ih hrest, List.singleton_append]

/-- A text in small letters has its small letters. -/
theorem lower_lower (s : List Char) : lower (lower s) = lower s :=
  lowerAfter_eq_self fun _ => isSmall_of_mem_lowerAfter

/-- **Lowering is idempotent.** The small letters of a name are the same name. -/
theorem fold_fold (name : String) : fold (fold name) = fold name := by
  rw [fold, fold, String.toList_ofList, lower_lower]

end FormulaTable.Text
