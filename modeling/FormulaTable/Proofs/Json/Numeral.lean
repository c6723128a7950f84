import FormulaTable.Json.Decoding
import FormulaTable.Proofs.Json.Reading
import FormulaTable.Proofs.Number.Text

/-!
# Written numerals

The numerals of natural numbers and of doubles are written as JSON has them: at least one digit
before the point and no zero in front of another digit. A natural number of 64 bits reads back from
its numeral. A double is read in rounded steps, so it need not.
-/

namespace FormulaTable

open Number (AllDigits Decimal allDigits_toDigits ofDigits_toDigits)

/-! ## Leading digits -/

namespace Number

/-- The digits of a positive number do not start with a zero. -/
theorem head?_toDigits_ne_zero {n : Nat} (h : 0 < n) : (Nat.toDigits 10 n).head? ≠ some '0' := by
  induction n using Nat.strongRecOn with
  | ind n ih =>
      by_cases hlt : n < 10
      · rw [Nat.toDigits_of_lt_base hlt]
        intro hhead
        have hdigit : ∀ n < 10, n.digitChar = '0' → n = 0 := by decide
        exact Nat.ne_of_gt h (hdigit n hlt (Option.some.inj hhead))
      · have hquotient : 0 < n / 10 := by omega
        rw [Nat.toDigits_of_base_le (by decide) (Nat.le_of_not_lt hlt), List.head?_append,
          Option.or_of_isSome (List.isSome_head?.mpr Nat.toDigits_ne_nil)]
        exact ih (n / 10) (by omega) hquotient

namespace Decimal

variable {d : Decimal}

/-- The whole part of a positive decimal starts with a zero only if it is a single zero. -/
theorem wholePart_eq_of_head? (h : 0 < d.coefficient) (hhead : d.wholePart.head? = some '0') :
    d.wholePart = ['0'] := by
  have hdigits : d.digits.head? ≠ some '0' := head?_toDigits_ne_zero h
  have hsome : d.digits.head?.isSome = true := List.isSome_head?.mpr Nat.toDigits_ne_nil
  unfold wholePart at hhead ⊢
  split at hhead
  · rw [List.head?_append, Option.or_of_isSome hsome] at hhead
    exact absurd hhead hdigits
  split at hhead
  · rw [List.head?_take, if_neg (by omega)] at hhead
    exact absurd hhead hdigits
  · next hplaces hlength => rw [if_neg hplaces, if_neg hlength]

end Decimal

end Number

/-! ## Numerals -/

namespace Json

namespace Numeral

open Float.Model.UnpackedFloat (Sign)

variable {n : Numeral} {sign : Sign} {d : Decimal} {x : Float}

theorem wellFormed_ofNat (n : Nat) : (ofNat n).WellFormed where
  whole := allDigits_toDigits n
  whole_ne_nil := Nat.toDigits_ne_nil
  no_leading_zero := by
    intro hhead
    cases n with
    | zero => rfl
    | succ n => exact absurd hhead (Number.head?_toDigits_ne_zero (Nat.succ_pos n))
  fraction := nofun

theorem wellFormed_ofDecimal (h : 0 < d.coefficient) : (ofDecimal sign d).WellFormed := by
  have hdigits : AllDigits d.digits := allDigits_toDigits _
  have hne : d.digits ≠ [] := Nat.toDigits_ne_nil
  unfold ofDecimal
  dsimp only
  split
  · refine ⟨d.allDigits_wholePart, d.wholePart_ne_nil, Decimal.wholePart_eq_of_head? h, ?_⟩
    dsimp only
    split
    · exact Number.allDigits_replicate_zero 1
    · exact d.allDigits_fractionPart
  · refine ⟨fun c hc => hdigits c (List.mem_of_mem_take hc), ?_, ?_,
      fun c hc => hdigits c (List.mem_of_mem_drop hc)⟩
    · exact fun htake => hne ((List.take_eq_nil_iff.mp htake).resolve_left (by decide))
    · intro hhead
      rw [List.head?_take, if_neg (by decide)] at hhead
      exact absurd hhead (Number.head?_toDigits_ne_zero h)

theorem wellFormed_zero (sign : Sign) :
    (ofDecimal sign { coefficient := 0, exponent := 0 }).WellFormed where
  whole := Number.allDigits_replicate_zero 1
  whole_ne_nil := List.cons_ne_nil _ _
  no_leading_zero := fun _ => rfl
  fraction := Number.allDigits_replicate_zero 1

theorem wellFormed_ofFloat? (h : ofFloat? x = some n) : n.WellFormed := by
  unfold ofFloat? at h
  split at h
  · cases h
  · cases h
  · cases h
    exact wellFormed_zero _
  · next sign m e hm _ =>
    cases h
    have hpos : 0 < (Number.shortest .even m e).value := Number.shortest_value_pos hm
    refine wellFormed_ofDecimal (Nat.pos_of_ne_zero fun hzero => ?_)
    rw [Decimal.value, hzero, Nat.cast_zero, zero_mul] at hpos
    exact hpos.false

/-- A natural number of 64 bits reads back. -/
theorem toWord?_ofNat {n : Nat} (h : n < 2 ^ 64) : (ofNat n).toWord? = some n := by
  have hdigits : Number.ofDigits (ofNat n).whole = n := ofDigits_toDigits n
  unfold toWord?
  rw [if_neg (by simp [ofNat]), hdigits]
  exact if_pos h

/-- The numeral of the double is read as the double again. -/
def ReadsBack (x : Float) : Prop := (ofFloat? x).bind toFloat? = some x

instance (x : Float) : Decidable (ReadsBack x) := inferInstanceAs (Decidable (_ = _))

-- the digits of `9007199254740991.0` make a number that is rounded before it is divided by ten
example : ¬ ReadsBack 9007199254740991 := by decide +kernel

end Numeral

/-! ## Numbers -/

theorem readable_ofNat (n : Nat) : (ofNat n).Readable :=
  fun _ ht => List.mem_singleton.mp ht ▸ Numeral.wellFormed_ofNat n

theorem readable_ofFloat (x : Float) : (ofFloat x).Readable := by
  unfold ofFloat
  cases h : Numeral.ofFloat? x with
  | none => exact fun _ ht => List.mem_singleton.mp ht ▸ trivial
  | some n => exact fun _ ht => List.mem_singleton.mp ht ▸ Numeral.wellFormed_ofFloat? h

theorem toFloat?_ofFloat {x : Float} (h : Numeral.ReadsBack x) : (ofFloat x).toFloat? = some x := by
  unfold Numeral.ReadsBack at h
  unfold ofFloat
  cases hnumeral : Numeral.ofFloat? x with
  | none =>
      rw [hnumeral] at h
      cases h
  | some n =>
      rw [hnumeral] at h
      exact h

end Json

end FormulaTable
