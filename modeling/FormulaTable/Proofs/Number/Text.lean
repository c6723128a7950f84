import FormulaTable.Proofs.Number.Digits
import FormulaTable.Proofs.Number.Shortest

/-!
# The text of a number tells which number it is

The positional text of a decimal reads back as the number that the decimal stands for. So different
doubles have different texts, other than the two zeros, which share theirs.
-/

namespace FormulaTable.Number

open Float.Model (UnpackedFloat)
open Float.Model.UnpackedFloat (Sign)

/-! ## Decimals -/

namespace Decimal

variable {d : Decimal}

theorem allDigits_wholePart (d : Decimal) : AllDigits d.wholePart := by
  unfold wholePart
  split
  · exact (allDigits_toDigits _).append (allDigits_replicate_zero _)
  split
  · exact fun c hc => allDigits_toDigits _ c (List.mem_of_mem_take hc)
  · exact allDigits_replicate_zero 1

theorem allDigits_fractionPart (d : Decimal) : AllDigits d.fractionPart := by
  unfold fractionPart
  split
  · exact fun c hc => nomatch hc
  split
  · exact fun c hc => allDigits_toDigits _ c (List.mem_of_mem_drop hc)
  · exact (allDigits_replicate_zero _).append (allDigits_toDigits _)

theorem wholePart_ne_nil (d : Decimal) : d.wholePart ≠ [] := by
  unfold wholePart
  split
  · exact List.append_ne_nil_of_left_ne_nil Nat.toDigits_ne_nil _
  split
  · next hplaces =>
    rw [← List.length_pos_iff, List.length_take]
    omega
  · decide

theorem length_fractionPart (d : Decimal) : d.fractionPart.length = d.places := by
  unfold fractionPart
  split
  · next hplaces => rw [hplaces]; rfl
  split
  · rw [List.length_drop]; omega
  · rw [List.length_append, List.length_replicate]; omega

/-- The digits before and after the point give the number again. -/
theorem ofDigits_parts (d : Decimal) :
    ofDigits (d.wholePart ++ d.fractionPart) = d.coefficient * 10 ^ d.exponent.toNat := by
  have hexponent (h : ¬ d.places = 0) : d.exponent.toNat = 0 := by
    unfold places at h
    omega
  unfold wholePart fractionPart
  split
  · rw [List.append_nil, ofDigits_append_zeros, digits, ofDigits_toDigits, Nat.mul_comm]
  · next hplaces =>
    rw [hexponent hplaces, Nat.pow_zero, Nat.mul_one]
    split
    · rw [List.take_append_drop, digits, ofDigits_toDigits]
    · rw [← List.append_assoc]
      change ofDigits (List.replicate (_ + 1) '0' ++ _) = _
      rw [ofDigits_zeros_append, digits, ofDigits_toDigits]

/-- What the positional text of a decimal reads back as. -/
def reread (d : Decimal) : Decimal :=
  { coefficient := d.coefficient * 10 ^ d.exponent.toNat, exponent := 0 - d.places }

theorem value_reread (d : Decimal) : d.reread.value = d.value := by
  have hten : (10 : ℚ) ≠ 0 := by norm_num
  have hexponent : (d.exponent.toNat : Int) + (0 - d.places) = d.exponent := by
    unfold places
    omega
  calc d.reread.value
    _ = d.coefficient * ((10 : ℚ) ^ (d.exponent.toNat : Int) * 10 ^ (0 - d.places : Int)) := by
      rw [value, reread, zpow_natCast]
      push_cast
      ring
    _ = d.value := by rw [← zpow_add₀ hten, hexponent, value]

theorem readDecimal?_positional (d : Decimal) : readDecimal? d.positional = some d.reread := by
  have hwhole : AllDigits d.wholePart := allDigits_wholePart d
  have hfraction : AllDigits d.fractionPart := allDigits_fractionPart d
  have hnonempty : d.wholePart.isEmpty = false := by
    rw [← Bool.not_eq_true, List.isEmpty_iff]
    exact wholePart_ne_nil d
  have hparts : ({ coefficient := ofDigits (d.wholePart ++ d.fractionPart)
                   exponent := 0 - d.fractionPart.length } : Decimal) = d.reread := by
    rw [ofDigits_parts, length_fractionPart, reread]
  unfold positional readDecimal?
  split
  · next hempty =>
    have htake := takeWhile_append hwhole noDigitNext_nil
    have hdrop := dropWhile_append hwhole noDigitNext_nil
    rw [List.append_nil] at htake hdrop
    rw [htake, hdrop]
    rw [List.isEmpty_iff.mp hempty] at hparts
    simpa [hnonempty, readExponent?] using hparts
  · have hpoint : NoDigitNext ('.' :: d.fractionPart) := noDigitNext_cons (by decide)
    have htake := takeWhile_append hfraction noDigitNext_nil
    have hdrop := dropWhile_append hfraction noDigitNext_nil
    rw [List.append_nil] at htake hdrop
    rw [takeWhile_append hwhole hpoint, dropWhile_append hwhole hpoint]
    simpa [hnonempty, htake, hdrop, readExponent?] using hparts

/-- Decimals with the same positional text stand for the same number. -/
theorem value_eq_of_positional_eq {d d' : Decimal} (h : d.positional = d'.positional) :
    d.value = d'.value := by
  have hread := readDecimal?_positional d
  rw [h, readDecimal?_positional d', Option.some_inj] at hread
  rw [← value_reread d, ← value_reread d', hread]

/-- A positional text starts with a digit. -/
theorem digitFirst_positional (d : Decimal) : DigitFirst d.positional := by
  have hfirst (rest : List Char) : DigitFirst (d.wholePart ++ rest) :=
    (allDigits_wholePart d).digitFirst (wholePart_ne_nil d)
  unfold positional
  split
  · rw [← List.append_nil d.wholePart]
    exact hfirst []
  · exact hfirst _

end Decimal

/-! ## Doubles -/

variable {x y : Float} {s t : Sign} {u v : List Char}

/-- The sign that is written, if one is. -/
def writtenSign : Sign → Option Char
  | .positive => none
  | .negative => some '-'

theorem signText_eq (s : Sign) : signText s = (writtenSign s).toList := by
  cases s <;> rfl

theorem writtenSign_injective : Function.Injective writtenSign := by
  intro s t h
  cases s <;> cases t <;> first | rfl | cases h

theorem eq_minus_of_mem_writtenSign {c : Char} (h : c ∈ writtenSign s) : c = '-' := by
  cases s with
  | positive => cases h
  | negative => exact (Option.some.inj h).symm

/-- A sign is told from what follows it, as long as that does not start with a sign of its own. -/
theorem signText_append_inj (hu : u.head? ≠ some '-') (hv : v.head? ≠ some '-')
    (h : signText s ++ u = signText t ++ v) : s = t ∧ u = v := by
  rw [signText_eq, signText_eq] at h
  obtain ⟨hsign, hrest⟩ := optional_append_inj
    (fun _ hc => eq_minus_of_mem_writtenSign hc ▸ hv)
    (fun _ hc => eq_minus_of_mem_writtenSign hc ▸ hu) h
  exact ⟨writtenSign_injective hsign, hrest⟩

theorem signedText_of_infinity (h : exact x = .infinity s) :
    signedText x = signText s ++ "inf".toList := by
  rw [signedText, h]

theorem signedText_of_finite {m : Nat} {e : Int} {hm : 0 < m} (h : exact x = .finite s m e hm) :
    signedText x = signText s ++ (shortest .up m e).positional := by
  rw [signedText, h]

theorem infinity_or_finite (hzero : ¬ IsZero x) (hnan : x.isNaN = false) :
    (∃ s, exact x = .infinity s) ∨ ∃ s m e hm, exact x = .finite s m e hm := by
  cases hx : exact x with
  | notANumber => exact absurd (isNaN_iff.mpr hx) (by rw [hnan]; decide)
  | zero s => exact absurd ⟨s, hx⟩ hzero
  | infinity s => exact .inl ⟨s, rfl⟩
  | finite s m e hm => exact .inr ⟨s, m, e, hm, rfl⟩

/-- Numbers other than zero with the same text are the same. -/
theorem eq_of_signedText_eq (hx : ¬ IsZero x) (hy : ¬ IsZero y) (hxnan : x.isNaN = false)
    (hynan : y.isNaN = false) (h : signedText x = signedText y) : x = y := by
  have hword : "inf".toList.head? ≠ some '-' := by decide
  have hdigits (d : Decimal) : d.positional.head? ≠ some '-' :=
    d.digitFirst_positional.head?_ne (by decide)
  have hmixed (d : Decimal) : d.positional ≠ "inf".toList := fun h =>
    d.digitFirst_positional.head?_ne (by decide) (congrArg List.head? h)
  refine exact_injective ?_
  rcases infinity_or_finite hx hxnan with ⟨s, hxs⟩ | ⟨s, m, e, hm, hxs⟩
  · rw [signedText_of_infinity hxs] at h
    rcases infinity_or_finite hy hynan with ⟨t, hyt⟩ | ⟨t, n, f, hn, hyt⟩
    · rw [signedText_of_infinity hyt] at h
      rw [hxs, hyt, (signText_append_inj hword hword h).1]
    · rw [signedText_of_finite hyt] at h
      exact absurd (signText_append_inj hword (hdigits _) h).2.symm (hmixed _)
  · rw [signedText_of_finite hxs] at h
    rcases infinity_or_finite hy hynan with ⟨t, hyt⟩ | ⟨t, n, f, hn, hyt⟩
    · rw [signedText_of_infinity hyt] at h
      exact absurd (signText_append_inj (hdigits _) hword h).2 (hmixed _)
    · rw [signedText_of_finite hyt] at h
      obtain ⟨rfl, htext⟩ := signText_append_inj (hdigits _) (hdigits _) h
      obtain ⟨rfl, rfl⟩ := eq_of_shortest_value_eq (canonical_of_exact hxs) (canonical_of_exact hyt)
        (Decimal.value_eq_of_positional_eq htext)
      rw [hxs, hyt]

/-- Only zero is written as zero. -/
theorem signedText_ne_zero (hzero : ¬ IsZero x) (hnan : x.isNaN = false) :
    signedText x ≠ ['0'] := by
  intro h
  rcases infinity_or_finite hzero hnan with ⟨s, hx⟩ | ⟨s, m, e, hm, hx⟩
  · rw [signedText_of_infinity hx] at h
    cases s <;> exact absurd h (by decide)
  · rw [signedText_of_finite hx] at h
    have htext : (shortest .up m e).positional = Decimal.positional ⟨0, 0⟩ :=
      (signText_append_inj (t := .positive)
        ((Decimal.digitFirst_positional _).head?_ne (by decide)) (by decide) h).2
    have hvalue : (shortest .up m e).value = 0 := by
      rw [Decimal.value_eq_of_positional_eq htext, Decimal.value, Nat.cast_zero, zero_mul]
    exact absurd hvalue (shortest_value_pos hm).ne'

/-- **The text of a number tells which number it is**: numbers have the same text just if they are
equal. -/
theorem text_eq_iff (hx : x.isNaN = false) (hy : y.isNaN = false) :
    text x = text y ↔ (x == y) = true := by
  have hzero {x : Float} (h : IsZero x) : text x = ['0'] := if_pos (beq_zero.mpr h)
  have hsigned {x : Float} (h : ¬ IsZero x) : text x = signedText x := if_neg (mt beq_zero.mp h)
  constructor
  · intro h
    by_cases hx0 : IsZero x
    · by_cases hy0 : IsZero y
      · exact beq_iff.mpr (.inr ⟨hx0, hy0⟩)
      · rw [hzero hx0, hsigned hy0] at h
        exact absurd h.symm (signedText_ne_zero hy0 hy)
    · by_cases hy0 : IsZero y
      · rw [hsigned hx0, hzero hy0] at h
        exact absurd h (signedText_ne_zero hx0 hx)
      · rw [hsigned hx0, hsigned hy0] at h
        exact beq_iff.mpr (.inl ⟨eq_of_signedText_eq hx0 hy0 hx hy h, hx⟩)
  · intro h
    rcases beq_iff.mp h with ⟨rfl, -⟩ | ⟨hx0, hy0⟩
    · rfl
    · rw [hzero hx0, hzero hy0]

end FormulaTable.Number
