import FormulaTable.Proofs.Calendar.Text
import FormulaTable.Proofs.Number.Text
import FormulaTable.Proofs.Stored.Value
import FormulaTable.Rollup.Key

/-!
# Keys tell values apart

Two values have the same key just if they are the same, as far as their numbers are numbers and
their dates keep to whole milliseconds.
-/

namespace FormulaTable.Value

open Calendar (Instant)

variable {v w : Value}

/-- The key tells the value in full: it is neither what is not a number nor a date with a part of a
millisecond. -/
def Keyed (v : Value) : Prop :=
  match v with
  | number x => x.isNaN = false
  | date t => t.WholeMillis
  | _ => True

/-! ## Keys of one kind -/

/-- Keys that start alike are told apart by what follows. -/
theorem append_ofList_inj {start : String} {s t : List Char}
    (h : start ++ String.ofList s = start ++ String.ofList t) : s = t :=
  String.ofList_injective (String.append_right_inj start |>.mp h)

theorem key_text_inj {s t : String} (h : (text s).key = (text t).key) : s = t :=
  (String.append_right_inj "s:").mp h

theorem key_boolean_inj : ∀ {a b : Bool}, (boolean a).key = (boolean b).key → a = b := by
  decide

theorem key_date_inj {s t : Instant} (hs : s.WholeMillis) (ht : t.WholeMillis)
    (h : (date s).key = (date t).key) : s = t :=
  Instant.milliText_inj hs ht (append_ofList_inj h)

theorem key_number_iff {x y : Float} (hx : x.isNaN = false) (hy : y.isNaN = false) :
    (number x).key = (number y).key ↔ (x == y) = true := by
  rw [← Number.text_eq_iff hx hy]
  exact ⟨append_ofList_inj, fun h => congrArg (fun s => "n:" ++ String.ofList s) h⟩

/-- The value is a list, whose key is its stored form. -/
def IsList (v : Value) : Prop := (∃ items, v = options items) ∨ ∃ refs, v = references refs

/-- Lists are told by their keys, as they are by their stored forms. -/
theorem list_eq_of_key_eq (hv : v.IsList) (hw : w.IsList) (h : v.key = w.key) : v = w := by
  have hlist {v : Value} (hv : v.IsList) :
      v.key = "j:" ++ String.ofList v.toJson.compact ∧ v.NumberReadsBack := by
    rcases hv with ⟨items, rfl⟩ | ⟨refs, rfl⟩
    · exact ⟨rfl, trivial⟩
    · exact ⟨rfl, trivial⟩
  obtain ⟨hvkey, hvnumber⟩ := hlist hv
  obtain ⟨hwkey, hwnumber⟩ := hlist hw
  rw [hvkey, hwkey] at h
  exact toJson_inj hvnumber hwnumber
    (Json.compact_inj v.readable_toJson w.readable_toJson (append_ofList_inj h))

theorem key_options_inj {xs ys : List String} (h : (options xs).key = (options ys).key) :
    xs = ys :=
  options.inj (list_eq_of_key_eq (.inl ⟨xs, rfl⟩) (.inl ⟨ys, rfl⟩) h)

theorem key_references_inj {rs ss : List Reference}
    (h : (references rs).key = (references ss).key) : rs = ss :=
  references.inj (list_eq_of_key_eq (.inr ⟨rs, rfl⟩) (.inr ⟨ss, rfl⟩) h)

theorem key_options_ne_key_references (xs : List String) (rs : List Reference) :
    (options xs).key ≠ (references rs).key :=
  fun h => nomatch list_eq_of_key_eq (.inl ⟨xs, rfl⟩) (.inr ⟨rs, rfl⟩) h

/-! ## Keys of two kinds -/

/-- The first character of a key. -/
def keyLetter (v : Value) : Char :=
  match v with
  | null => '\x00'
  | text _ => 's'
  | number _ => 'n'
  | boolean _ => 'b'
  | date _ => 'd'
  | options _ | references _ => 'j'

theorem head?_key (v : Value) : v.key.toList.head? = some v.keyLetter := by
  cases v with
  | null => rfl
  | boolean b => cases b <;> rfl
  | _ => simp [key, keyLetter]

/-- Values with the same key are the same. -/
theorem same_of_key_eq (hv : v.Keyed) (hw : w.Keyed) (h : v.key = w.key) : v.same w = true := by
  have hletter : v.keyLetter = w.keyLetter := by
    rw [← Option.some_inj, ← head?_key, ← head?_key, h]
  -- the first characters rule out two kinds, other than those of the two lists
  cases v with
  | null =>
    cases w with
    | null => rfl
    | _ => simp [keyLetter] at hletter
  | text s =>
    cases w with
    | text t => exact beq_iff_eq.mpr (key_text_inj h)
    | _ => simp [keyLetter] at hletter
  | number x =>
    cases w with
    | number y => exact (key_number_iff hv hw).mp h
    | _ => simp [keyLetter] at hletter
  | boolean a =>
    cases w with
    | boolean b => exact beq_iff_eq.mpr (key_boolean_inj h)
    | _ => simp [keyLetter] at hletter
  | date s =>
    cases w with
    | date t => exact beq_iff_eq.mpr (key_date_inj hv hw h)
    | _ => simp [keyLetter] at hletter
  | options xs =>
    cases w with
    | options ys => exact beq_iff_eq.mpr (key_options_inj h)
    | references rs => exact absurd h (key_options_ne_key_references xs rs)
    | _ => simp [keyLetter] at hletter
  | references rs =>
    cases w with
    | references ss => exact beq_iff_eq.mpr (key_references_inj h)
    | options xs => exact absurd h.symm (key_options_ne_key_references xs rs)
    | _ => simp [keyLetter] at hletter

/-- Values that are the same have the same key. -/
theorem key_eq_of_same (hv : v.Keyed) (hw : w.Keyed) (h : v.same w = true) : v.key = w.key := by
  cases v with
  | null =>
    cases w with
    | null => rfl
    | _ => cases h
  | text s =>
    cases w with
    | text t => exact congrArg (fun s => (text s).key) (beq_iff_eq.mp h)
    | _ => cases h
  | number x =>
    cases w with
    | number y => exact (key_number_iff hv hw).mpr h
    | _ => cases h
  | boolean a =>
    cases w with
    | boolean b => exact congrArg (fun a => (boolean a).key) (beq_iff_eq.mp h)
    | _ => cases h
  | date s =>
    cases w with
    | date t => exact congrArg (fun s => (date s).key) (beq_iff_eq.mp h)
    | _ => cases h
  | options xs =>
    cases w with
    | options ys => exact congrArg (fun xs => (options xs).key) (beq_iff_eq.mp h)
    | _ => cases h
  | references rs =>
    cases w with
    | references ss => exact congrArg (fun rs => (references rs).key) (beq_iff_eq.mp h)
    | _ => cases h

end FormulaTable.Value
