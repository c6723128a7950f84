import FormulaTable.Proofs.Formula.Slices

/-!
# Padding texts

A text that is padded to a length keeps all its characters and gets those that are missing, which are
the filler over and over again, before it or after it. The length is the whole part of a number, and a
text is padded to no length below zero or beyond the greatest one.
-/

namespace FormulaTable.Text

variable {s filler : List Char} {n i : Nat}

/-! ## Cycles -/

theorem length_flatten_replicate (count : Nat) :
    (List.replicate count filler).flatten.length = count * filler.length := by
  rw [List.length_flatten, List.map_replicate, List.sum_replicate, smul_eq_mul]

/-- A text that is repeated has the same characters one length after another. -/
theorem getElem?_flatten_replicate {count : Nat} (h : i < count * filler.length) :
    (List.replicate count filler).flatten[i]? = filler[i % filler.length]? := by
  induction count generalizing i with
  | zero => omega
  | succ count ih =>
      rw [List.replicate_succ, List.flatten_cons]
      rcases Nat.lt_or_ge i filler.length with hlt | hge
      · rw [List.getElem?_append_left hlt, Nat.mod_eq_of_lt hlt]
      · rw [Nat.succ_mul] at h
        rw [List.getElem?_append_right hge, ih (by omega), ← Nat.mod_eq_sub_mod hge]

theorem cycle_nil (n : Nat) : cycle [] n = [] := by
  rw [cycle, List.flatten_replicate_nil, List.take_nil]

/-- There are enough repetitions for any number of characters. -/
theorem lt_repetitions (hfiller : filler ≠ []) (n : Nat) :
    n < (n / filler.length + 1) * filler.length :=
  Nat.lt_mul_of_div_lt (Nat.lt_succ_self _) (List.length_pos_iff.mpr hfiller)

theorem length_cycle (hfiller : filler ≠ []) (n : Nat) : (cycle filler n).length = n := by
  have hlt := lt_repetitions hfiller n
  rw [cycle, List.length_take, length_flatten_replicate]
  omega

theorem getElem?_cycle (hfiller : filler ≠ []) (h : i < n) :
    (cycle filler n)[i]? = filler[i % filler.length]? := by
  have hlt := lt_repetitions hfiller n
  rw [cycle, List.getElem?_take_of_lt h, getElem?_flatten_replicate (by omega)]

end FormulaTable.Text

namespace FormulaTable.Formula.Library

open Number (position truncated truncate)

variable {args : List Value} {i limit n : Nat} {x : Float}

/-! ## Counts -/

section Counts

variable (hx : numberArg args i = some x) (hlimit : limit < 2 ^ 53)

include hx

theorem countArg_eq : countArg args i limit =
    if 0 ≤ truncate x ∧ truncate x ≤ Float.ofNat limit then some (truncate x).toUInt64.toNat
    else none := by
  rw [countArg, hx]
  rfl

include hlimit

/-- A count is the whole part of a number between zero and the limit. -/
theorem countArg_eq_some (hnumber : x.isNaN = false) (h : truncated (position x) = n)
    (hn : n ≤ limit) : countArg args i limit = some n := by
  have hwhole := Number.whole_ofNat hlimit
  have hrange : 0 ≤ truncate x ∧ truncate x ≤ Float.ofNat limit := by
    rw [Number.le_iff_position, Number.le_iff_position, Number.isNaN_truncate,
      Number.position_truncate, Number.position_zero, hwhole.position_eq,
      Number.isNaN_of_isFinite hwhole.isFinite, h]
    exact ⟨⟨by decide, hnumber, by exact_mod_cast Nat.zero_le n⟩, hnumber, rfl,
      by exact_mod_cast hn⟩
  rw [countArg_eq hx, if_pos hrange, Number.toNat_toUInt64_truncate h (by omega)]

theorem countArg_eq_none
    (h : x.isNaN = true ∨ truncated (position x) < 0 ∨ limit < truncated (position x)) :
    countArg args i limit = none := by
  have hwhole := Number.whole_ofNat hlimit
  rw [countArg_eq hx]
  refine if_neg ?_
  rw [Number.le_iff_position, Number.le_iff_position, Number.isNaN_truncate,
    Number.position_truncate, Number.position_zero, hwhole.position_eq]
  rintro ⟨⟨-, hnumber, hleast⟩, -, -, hmost⟩
  have hleast : 0 ≤ truncated (position x) := by exact_mod_cast hleast
  have hmost : truncated (position x) ≤ limit := by exact_mod_cast hmost
  rcases h with h | h | h
  · rw [hnumber] at h
    cases h
  · omega
  · omega

end Counts

/-! ## Padding -/

theorem pad_eq (fill : List Char → Nat → List Char → List Char) (text count filler : Value) :
    pad fill [text, count, filler] =
      Value.ofOption (fun n => .ofChars (fill text.chars n filler.chars))
        (countArg [text, count, filler] 1 maxPadding) := rfl

/-- **Padding has the exact length and keeps the text.** The characters that are added are those that
are missing for the length, the filler over and over again. Without a filler nothing is added, and
nothing to a text that is long enough. -/
theorem padding_keeps_text (text count filler : Value) (hcount : count.toNumber? = some x) :
    (∀ n : Nat, x.isNaN = false → truncated (position x) = n → n ≤ 10000 →
      ∃ added : List Char,
        pad Text.padStart [text, count, filler] = .ofChars (added ++ text.chars) ∧
          pad Text.padEnd [text, count, filler] = .ofChars (text.chars ++ added) ∧
          (filler.chars = [] ∨ n ≤ text.chars.length → added = []) ∧
          (filler.chars ≠ [] →
            (added ++ text.chars).length = Max.max text.chars.length n ∧
              added.length = n - text.chars.length ∧
              ∀ i < added.length, added[i]? = filler.chars[i % filler.chars.length]?)) ∧
      (x.isNaN = true ∨ truncated (position x) < 0 ∨ 10000 < truncated (position x) →
        pad Text.padStart [text, count, filler] = .null ∧
          pad Text.padEnd [text, count, filler] = .null) := by
  have hlimit : maxPadding < 2 ^ 53 := by decide
  have hcount : numberArg [text, count, filler] 1 = some x := hcount
  rw [pad_eq, pad_eq]
  constructor
  · intro n hnumber hn hle
    rw [countArg_eq_some hcount hlimit hnumber hn hle]
    refine ⟨Text.cycle filler.chars (n - text.chars.length), rfl, rfl, ?_, ?_⟩
    · rintro (hfiller | hlong)
      · rw [hfiller, Text.cycle_nil]
      · rw [Nat.sub_eq_zero_of_le hlong, Text.cycle, List.take_zero]
    · intro hfiller
      have hlength := Text.length_cycle hfiller (n - text.chars.length)
      refine ⟨?_, hlength, fun i hi => Text.getElem?_cycle hfiller (hlength ▸ hi)⟩
      rw [List.length_append, hlength]
      omega
  · intro h
    rw [countArg_eq_none hcount hlimit h]
    exact ⟨rfl, rfl⟩

/-- Characters of several bytes, a length with fractional digits, and a filler that is cut short. -/
theorem padding_of_accents :
    (Value.number 7.5).toNumber? = some 7.5 ∧ (7.5 : Float).isNaN = false ∧
      truncated (position 7.5) = 7 ∧ ∃ added : List Char,
        pad Text.padStart [.text "añ", .number 7.5, .text "é𝄞"] = .ofChars (added ++ ['a', 'ñ']) ∧
          pad Text.padEnd [.text "añ", .number 7.5, .text "é𝄞"] = .ofChars (['a', 'ñ'] ++ added) ∧
          added.length = 5 ∧ added[4]? = some 'é' := by
  have hexact : Number.exact 7.5 = .finite .positive 8444249301319680 (-50) (by decide) := rfl
  have htruncated : truncated (position 7.5) = (7 : Nat) := by
    rw [position, hexact, Number.positionOf]
    exact Number.truncated_signedBy .positive (by norm_num) (by norm_num)
  obtain ⟨hpad, -⟩ := padding_keeps_text (.text "añ") (.number 7.5) (.text "é𝄞") rfl
  obtain ⟨added, hstart, hend, -, hadded⟩ := hpad 7 (by decide) htruncated (by decide)
  obtain ⟨-, hlength, hchars⟩ := hadded (by decide)
  have hlength : added.length = 5 := hlength
  exact ⟨rfl, by decide, htruncated, added, hstart, hend, hlength, hchars 4 (by omega)⟩

end FormulaTable.Formula.Library
