import FormulaTable.Json.Quoted

/-!
# Strings read back

A text between quotes reads back as that text, whatever characters it has.
-/

namespace FormulaTable.Json

/-! ## Characters -/

/-- A character in front of what has been read. -/
def putFront (c : Char) (read : List Unit16 × List Char) : List Unit16 × List Char :=
  (.char c :: read.1, read.2)

theorem hexDigit?_hexDigit : ∀ n < 16, hexDigit? (hexDigit n) = some n := by
  decide

/-- A character that is written by its number. -/
theorem scanUnits_numbered {c : Char} (hc : c.toNat < 0x20) (s : List Char) :
    scanUnits
        ('\\' :: 'u' :: '0' :: '0' :: hexDigit (c.toNat / 16) :: hexDigit (c.toNat % 16) :: s) =
      (scanUnits s).map (putFront c) := by
  have hnumber : hexNumber? '0' '0' (hexDigit (c.toNat / 16)) (hexDigit (c.toNat % 16)) =
      some c.toNat := by
    have hzero : hexDigit? '0' = some 0 := by decide
    have hsum : 4096 * 0 + 256 * 0 + 16 * (c.toNat / 16) + c.toNat % 16 = c.toNat := by omega
    unfold hexNumber?
    rw [hzero, hexDigit?_hexDigit _ (by omega), hexDigit?_hexDigit _ (by omega)]
    exact congrArg some hsum
  have hunit : Unit16.ofNat c.toNat = .char c := by
    unfold Unit16.ofNat
    rw [if_neg (by omega), Char.ofNat_toNat]
  rw [scanUnits, hnumber]
  cases scanUnits s with
  | none => rfl
  | some read =>
    change some (Unit16.ofNat c.toNat :: read.1, read.2) = _
    rw [hunit]
    rfl

/-- A character that is written by a letter. -/
theorem scanUnits_escaped {e c : Char} (he : e ≠ 'u') (hc : escaped? e = some c) (s : List Char) :
    scanUnits ('\\' :: e :: s) = (scanUnits s).map (putFront c) := by
  rw [scanUnits]
  · rw [hc]
    cases scanUnits s with
    | none => rfl
    | some _ => rfl
  · exact fun _ _ _ _ _ hu _ => he hu

/-- A character that is written as itself. -/
theorem scanUnits_plain {c : Char} (hquote : c ≠ '"') (hslash : c ≠ '\\') (hc : ¬ c.toNat < 0x20)
    (s : List Char) : scanUnits (c :: s) = (scanUnits s).map (putFront c) := by
  rw [scanUnits]
  · rw [if_neg hc]
    cases scanUnits s with
    | none => rfl
    | some _ => rfl
  · exact fun h _ => hslash h
  · exact hquote
  · exact fun _ _ _ _ _ h _ => hslash h
  · exact fun _ _ h _ => hslash h

/-- A character reads back, however it is written. -/
theorem scanUnits_escape (c : Char) (s : List Char) :
    scanUnits (escape c ++ s) = (scanUnits s).map (putFront c) := by
  unfold escape
  split
  · exact scanUnits_escaped (by decide) rfl s
  · exact scanUnits_escaped (by decide) rfl s
  · exact scanUnits_escaped (by decide) rfl s
  · exact scanUnits_escaped (by decide) rfl s
  · exact scanUnits_escaped (by decide) rfl s
  · exact scanUnits_escaped (by decide) rfl s
  · exact scanUnits_escaped (by decide) rfl s
  · next hquote hslash _ _ _ _ _ =>
    split
    · next hc => exact scanUnits_numbered hc s
    · next hc => exact scanUnits_plain hquote hslash hc s

/-! ## Texts -/

/-- A text reads back up to its closing quote. -/
theorem scanUnits_flatMap_escape (s rest : List Char) :
    scanUnits (s.flatMap escape ++ '"' :: rest) = some (s.map .char, rest) := by
  induction s with
  | nil => rw [List.flatMap_nil, List.nil_append, scanUnits]; rfl
  | cons c s ih =>
    rw [List.flatMap_cons, List.append_assoc, scanUnits_escape, ih]
    rfl

theorem joinHalves?_map_char (s : List Char) : joinHalves? (s.map .char) = some s := by
  induction s with
  | nil => rfl
  | cons c s ih =>
    rw [List.map_cons, joinHalves?, ih]
    rfl

/-- **A text between quotes reads back as that text.** -/
theorem scanString_quote (s rest : List Char) :
    scanString (s.flatMap escape ++ '"' :: rest) = some (some (String.ofList s), rest) := by
  unfold scanString
  rw [scanUnits_flatMap_escape]
  exact congrArg (fun text => some (text.map String.ofList, rest)) (joinHalves?_map_char s)

end FormulaTable.Json
