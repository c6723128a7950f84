import FormulaTable.Formula.Library.Text
import FormulaTable.Proofs.Number.WholePart

/-!
# Parts of texts between indices

An index of a slice names a place in the text: its whole part counts from the start, or from the end
if it is negative, and where it leads out of the text the place is the nearer end. So a slice is the
part between two places, and a text is made of the parts before and after one.
-/

namespace FormulaTable.Formula.Library

open Number (Whole IsZero toInt64 truncate greatest fits_of_le whole_ofNat)
open Float.Model (UnpackedFloat)

variable {x : Float} {n : Nat} {z : Int}

/-! ## Places -/

/-- The place in a text of this length that an integer names. A negative one counts from the end. -/
def placeOf (k : Int) (n : Nat) : Nat :=
  if 0 ≤ k then Min.min k.toNat n else (Max.max 0 (n + k)).toNat

theorem placeOf_le (k : Int) (n : Nat) : placeOf k n ≤ n := by
  unfold placeOf
  split <;> omega

/-- What an index adds to the length is no place if it leads before the start. -/
theorem toNat_greatest_zero (h : x ≤ 0) : (greatest x 0).toUInt64.toNat = 0 := by
  unfold greatest
  rw [decide_eq_true h, Bool.or_true, if_pos rfl]
  rfl

theorem toNat_greatest_pos (h : Whole x z) (hz : 0 < z) (hlt : z < 2 ^ 64) :
    (greatest x 0).toUInt64.toNat = z.toNat := by
  have hnot : ¬ x ≤ 0 := by
    rw [Number.le_iff_position, h.position_eq, Number.position_zero]
    exact fun hle => absurd (by exact_mod_cast hle.2.2 : z ≤ 0) (not_le.mpr hz)
  unfold greatest
  rw [decide_eq_false hnot, Number.isNaN_of_isFinite h.isFinite, Bool.or_false,
    if_neg Bool.false_ne_true, h.toNat_toUInt64]
  omega

/-! ## Indices -/

theorem clampIndex_of_not_neg (h : ¬ truncate x < 0) (n : Nat) :
    clampIndex x n = Min.min (truncate x).toUInt64.toNat n := by
  unfold clampIndex
  rw [if_neg h]

theorem clampIndex_of_neg (h : truncate x < 0) (n : Nat) :
    clampIndex x n = (greatest (Float.ofNat n + truncate x) 0).toUInt64.toNat := by
  unfold clampIndex
  rw [if_pos h]

theorem whole_lt_zero_iff (h : Whole x z) : x < 0 ↔ z < 0 := by
  rw [Number.lt_iff_position, h.position_eq, Number.position_zero]
  constructor
  · exact fun hlt => by exact_mod_cast hlt.2.2
  · exact fun hlt => ⟨Number.isNaN_of_isFinite h.isFinite, by decide, by exact_mod_cast hlt⟩

/-- An index that is not negative counts from the start, also in a text whose length is no double. -/
theorem clampIndex_of_nonneg (h : Whole (truncate x) z) (hz : 0 ≤ z) (hn : n < 2 ^ 64) :
    clampIndex x n = Min.min z.toNat n := by
  have hnot : ¬ truncate x < 0 := by
    rw [whole_lt_zero_iff h]
    omega
  rw [clampIndex_of_not_neg hnot, h.toNat_toUInt64]
  omega

/-- The place that a whole number names. -/
theorem clampIndex_of_whole (h : Whole (truncate x) z) (hn : n < 2 ^ 53) :
    clampIndex x n = placeOf z n := by
  unfold placeOf
  split
  · next hz => exact clampIndex_of_nonneg h hz (by omega)
  · next hz =>
    have hwhole := whole_ofNat hn
    rw [clampIndex_of_neg ((whole_lt_zero_iff h).mpr (by omega))]
    rcases le_or_gt (n + z) 0 with hle | hgt
    · -- the sum may have more than 53 bits, but its sign is kept
      have hposition : Number.position (Float.ofNat n) + Number.position (truncate x) ≤ 0 := by
        rw [hwhole.position_eq, h.position_eq]
        exact_mod_cast hle
      rw [toNat_greatest_zero (Number.add_le_zero hwhole.isFinite h.isFinite hposition)]
      omega
    · have hsum := hwhole.add h (fits_of_le (by omega))
      rw [toNat_greatest_pos hsum hgt (by omega)]
      omega

/-- The sum of the length and the negative infinity leads before the start. -/
theorem clampIndex_of_infinity {s : UnpackedFloat.Sign} (hx : Number.exact x = .infinity s)
    (hn : n < 2 ^ 53) :
    clampIndex x n = placeOf (toInt64 x) n := by
  have htruncate : truncate x = x := Number.truncate_eq_self (by rw [hx]; nofun)
  have hnumber : x.isNaN = false := Number.isNaN_eq_false_iff.mpr (by rw [hx]; nofun)
  have hposition : Number.position x = Number.signedBy s Number.overflow := by
    rw [Number.position, hx, Number.positionOf]
  cases s with
  | positive =>
      have hnot : ¬ x < 0 := by
        rw [Number.lt_iff_position, hposition, Number.position_zero]
        exact fun hlt => lt_asymm hlt.2.2 Number.overflow_pos
      have hpart : toInt64 x = 2 ^ 63 - 1 := by
        rw [toInt64, hx]
        decide
      have hword : x.toUInt64.toNat = 2 ^ 64 - 1 := by
        rw [Number.toUInt64_eq, hx]
        rfl
      rw [clampIndex_of_not_neg (by rwa [htruncate]), htruncate, hword, hpart, placeOf,
        if_pos (by decide)]
      omega
  | negative =>
      have hneg : x < 0 := by
        rw [Number.lt_iff_position, hposition, Number.position_zero]
        exact ⟨hnumber, by decide, neg_lt_zero.mpr Number.overflow_pos⟩
      have hpart : toInt64 x = -2 ^ 63 := by
        rw [toInt64, hx]
        decide
      have hsum : Float.ofNat n + x ≤ 0 := by
        show Float.ofModel (.pack (UnpackedFloat.add .binary64 (Number.exact (Float.ofNat n))
          (Number.exact x))) ≤ 0
        have hinfinite : UnpackedFloat.add .binary64 (Number.exact (Float.ofNat n)) (Number.exact x) =
            .infinity .negative := by
          rw [hx]
          rcases (whole_ofNat hn).cases with ⟨hlength, -⟩ | ⟨s, m, e, hm, hlength, -⟩ <;>
            rw [hlength] <;> rfl
        rw [hinfinite]
        exact of_decide_eq_true rfl
      rw [clampIndex_of_neg (by rwa [htruncate]), htruncate, toNat_greatest_zero hsum, hpart, placeOf,
        if_neg (by decide)]
      omega

theorem clampIndex_of_isZero (h : IsZero (truncate x)) (n : Nat) : clampIndex x n = 0 := by
  have hnot : ¬ truncate x < 0 := by
    rw [Number.lt_iff_position]
    obtain ⟨s, hs⟩ := h
    rw [Number.position, hs, Number.positionOf_zero, Number.position_zero]
    exact fun hlt => lt_irrefl _ hlt.2.2
  rw [clampIndex_of_not_neg hnot, h.toNat_toUInt64]
  exact Nat.zero_min n

/-- **An index names the place of its whole part**: a negative one counts from the end, and where it
leads out of the text the place is the start or the end. What is not a number names the start. -/
theorem clampIndex_eq (x : Float) (hn : n < 2 ^ 53) :
    clampIndex x n = placeOf (toInt64 x) n := by
  cases hx : Number.exact x with
  | notANumber =>
      have htruncate : truncate x = x := Number.truncate_eq_self (by rw [hx]; nofun)
      have hnot : ¬ x < 0 := by
        rw [Number.lt_iff_position, Number.isNaN_eq_false_iff]
        exact fun hlt => hlt.1 hx
      rw [clampIndex_of_not_neg (by rwa [htruncate]), htruncate, Number.toUInt64_eq, toInt64, hx]
      exact (Nat.zero_min n).trans (Nat.zero_min n).symm
  | infinity s => exact clampIndex_of_infinity hx hn
  | zero s =>
      have htruncate : truncate x = x := Number.truncate_eq_self (by rw [hx]; nofun)
      rw [clampIndex_of_isZero (by rw [htruncate]; exact ⟨s, hx⟩), toInt64, hx]
      exact (Nat.zero_min n).symm
  | finite s m e hm =>
      obtain ⟨k, hk, hle, hlt⟩ := Number.toInt64_of_exact hx
      rcases Number.truncate_finite hx hle hlt with hwhole | ⟨rfl, hzero⟩
      · rw [clampIndex_of_whole hwhole hn, hk]
        unfold placeOf
        split <;> split <;> omega
      · have happly : s.apply (0 : Nat) = 0 := by cases s <;> rfl
        rw [clampIndex_of_isZero hzero, hk, happly]
        exact (Nat.zero_min n).symm

/-- The place that an integer names, also where it is rounded to a double. -/
theorem clampIndex_ofInt (k : Int) (hn : n < 2 ^ 53) : clampIndex (Float.ofInt k) n = placeOf k n := by
  rw [clampIndex_eq _ hn]
  rcases Number.toInt64_ofInt_or k with h | ⟨hk, hpart⟩ | ⟨hk, hpart⟩
  · rw [h]
  · rw [placeOf, placeOf, if_pos (by omega), if_pos (by omega)]
    omega
  · rw [placeOf, placeOf, if_neg (by omega), if_neg (by omega)]
    omega

/-! ## Slices -/

/-- A cut has the characters from the first place up to the second. -/
theorem cut_eq_extract (s : List Char) (start stop : Nat) : cut s start stop = s.extract start stop := by
  rw [cut, List.extract_eq_take_drop, List.drop_take]

theorem chars_ofChars (s : List Char) : (Value.ofChars s).chars = s := String.toList_ofList

theorem concat_ofChars (s t : List Char) :
    concat [Value.ofChars s, Value.ofChars t] = .ofChars (s ++ t) := by
  show Value.ofChars ((Value.ofChars s).chars ++ ((Value.ofChars t).chars ++ [])) = _
  rw [chars_ofChars, chars_ofChars, List.append_nil]

section Cuts

variable {v : Value} {i j : Int} (hlength : v.chars.length < 2 ^ 53)

include hlength

/-- A slice with two indices has the characters between their places. -/
theorem slice_between :
    slice [v, .number (Float.ofInt i), .number (Float.ofInt j)] =
      .ofChars (v.chars.extract (placeOf i v.chars.length) (placeOf j v.chars.length)) := by
  show Value.ofChars (cut v.chars (clampIndex (Float.ofInt i) v.chars.length)
    (clampIndex (Float.ofInt j) v.chars.length)) = _
  rw [clampIndex_ofInt i hlength, clampIndex_ofInt j hlength, cut_eq_extract]

/-- A slice with one index has the characters from its place on. -/
theorem slice_from :
    slice [v, .number (Float.ofInt i)] = .ofChars (v.chars.drop (placeOf i v.chars.length)) := by
  show Value.ofChars (cut v.chars (clampIndex (Float.ofInt i) v.chars.length) v.chars.length) = _
  rw [clampIndex_ofInt i hlength, cut, List.take_length]

/-- A slice from the start has the characters up to the place of its end. -/
theorem slice_upTo :
    slice [v, .number 0, .number (Float.ofInt i)] =
      .ofChars (v.chars.take (placeOf i v.chars.length)) := by
  have hzero : toInt64 0 = 0 := by decide
  have hstart : clampIndex 0 v.chars.length = 0 := by
    rw [clampIndex_eq 0 hlength, hzero]
    exact Nat.zero_min v.chars.length
  show Value.ofChars (cut v.chars (clampIndex 0 v.chars.length)
    (clampIndex (Float.ofInt i) v.chars.length)) = _
  rw [clampIndex_ofInt i hlength, hstart, cut, List.drop_zero]

end Cuts

/-- **Slices cut a text cleanly**: the slices before and after an index make the text, and the slice
between two indices has the characters from the place of the first up to the place of the second. It
is empty where the places cross, and no number whatever leads out of the text. -/
theorem slices_cut_cleanly (t : String) (hlength : t.length < 2 ^ 53) (i j : Int) :
    concat [slice [.text t, .number 0, .number (Float.ofInt i)],
        slice [.text t, .number (Float.ofInt i)]] = .text t ∧
      slice [.text t, .number (Float.ofInt i), .number (Float.ofInt j)] =
        .ofChars (t.toList.extract (placeOf i t.length) (placeOf j t.length)) ∧
      (placeOf j t.length ≤ placeOf i t.length →
        slice [.text t, .number (Float.ofInt i), .number (Float.ofInt j)] = .text "") ∧
      ∀ x : Float, clampIndex x t.length ≤ t.length := by
  have hchars : (Value.text t).chars.length = t.length := String.length_toList
  have hbetween := slice_between (v := .text t) (i := i) (j := j) (by rwa [hchars])
  rw [hchars] at hbetween
  refine ⟨?_, hbetween, fun hcross => ?_, fun x => ?_⟩
  · rw [slice_upTo (v := .text t) (by rwa [hchars]), slice_from (v := .text t) (by rwa [hchars])]
    rw [concat_ofChars, List.take_append_drop, Value.ofChars, Value.chars, String.ofList_toList]
    rfl
  · have hempty : (Value.text t).chars.extract (placeOf i t.length) (placeOf j t.length) = [] := by
      rw [List.extract_eq_take_drop, Nat.sub_eq_zero_of_le hcross, List.take_zero]
    rw [hbetween, hempty]
    rfl
  · rw [clampIndex_eq x hlength]
    exact placeOf_le _ _

/-- Characters of several bytes, an index before the start and one that rounds far behind the end. -/
theorem slices_of_accents :
    concat [slice [.text "año𝄞", .number 0, .number (Float.ofInt (-2))],
        slice [.text "año𝄞", .number (Float.ofInt (-2))]] = .text "año𝄞" ∧
      slice [.text "año𝄞", .number (Float.ofInt (-9)), .number (Float.ofInt (-2))] = .text "añ" ∧
      slice [.text "año𝄞", .number (Float.ofInt (2 ^ 70)), .number (Float.ofInt 1)] = .text "" ∧
      clampIndex (Float.ofInt (2 ^ 70)) 4 ≤ 4 :=
  have hlength : "año𝄞".length < 2 ^ 53 := by decide
  have hcross : placeOf 1 4 ≤ placeOf (2 ^ 70) 4 := by decide
  ⟨(slices_cut_cleanly "año𝄞" hlength (-2) 0).1, (slices_cut_cleanly "año𝄞" hlength (-9) (-2)).2.1,
    (slices_cut_cleanly "año𝄞" hlength (2 ^ 70) 1).2.2.1 hcross,
    (slices_cut_cleanly "año𝄞" hlength 0 0).2.2.2 (Float.ofInt (2 ^ 70))⟩

end FormulaTable.Formula.Library
