import FormulaTable.Number.Text
import Mathlib.Algebra.Group.Nat.Defs

/-!
# Digits

A row of digits denotes a number, and it ends where something else than a digit follows. What may be
left out in front of it is told from it by what it starts with.
-/

namespace FormulaTable

/-- An optional element is told from the list that follows it, if that does not start with it. -/
theorem optional_append_inj {α : Type} {a b : Option α} {s t : List α}
    (ha : ∀ c ∈ a, t.head? ≠ some c) (hb : ∀ c ∈ b, s.head? ≠ some c)
    (h : a.toList ++ s = b.toList ++ t) : a = b ∧ s = t := by
  cases a with
  | none =>
    cases b with
    | none => exact ⟨rfl, h⟩
    | some c => exact absurd (congrArg List.head? h) (hb c rfl)
  | some c =>
    cases b with
    | none => exact absurd (congrArg List.head? h).symm (ha c rfl)
    | some d =>
      obtain ⟨rfl, hrest⟩ := List.cons.inj h
      exact ⟨rfl, hrest⟩

end FormulaTable

namespace FormulaTable.Number

variable {ds es rest rest' : List Char} {n : Nat}

/-- All characters are decimal digits. -/
def AllDigits (ds : List Char) : Prop := ∀ c ∈ ds, c.isDigit = true

instance (ds : List Char) : Decidable (AllDigits ds) :=
  List.decidableBAll _ ds

/-- The text does not start with a decimal digit. -/
def NoDigitNext (s : List Char) : Prop := ∀ c ∈ s.head?, c.isDigit = false

theorem AllDigits.append (hds : AllDigits ds) (hes : AllDigits es) : AllDigits (ds ++ es) :=
  fun c hc => (List.mem_append.mp hc).elim (hds c) (hes c)

theorem allDigits_toDigits (n : Nat) : AllDigits (Nat.toDigits 10 n) :=
  fun _ hc => Nat.isDigit_of_mem_toDigits (by decide) (by decide) hc

theorem allDigits_replicate_zero (n : Nat) : AllDigits (List.replicate n '0') := by
  intro c hc
  rw [List.eq_of_mem_replicate hc]
  decide

theorem noDigitNext_nil : NoDigitNext [] := fun _ hc => nomatch hc

theorem noDigitNext_cons {c : Char} (h : c.isDigit = false) : NoDigitNext (c :: rest) := by
  intro d hd
  cases hd
  exact h

/-- The text starts with a decimal digit. -/
def DigitFirst (s : List Char) : Prop := ∃ c ∈ s.head?, c.isDigit = true

theorem AllDigits.digitFirst (hds : AllDigits ds) (hne : ds ≠ []) : DigitFirst (ds ++ rest) := by
  cases ds with
  | nil => exact absurd rfl hne
  | cons c ds => exact ⟨c, rfl, hds c List.mem_cons_self⟩

theorem DigitFirst.head?_ne {c : Char} (h : DigitFirst rest) (hc : c.isDigit = false) :
    rest.head? ≠ some c := by
  obtain ⟨d, hd, hdigit⟩ := h
  intro hhead
  rw [hhead] at hd
  cases hd
  rw [hc] at hdigit
  cases hdigit

/-! ## Reading a row of digits -/

theorem takeWhile_append (hds : AllDigits ds) (hrest : NoDigitNext rest) :
    (ds ++ rest).takeWhile Char.isDigit = ds := by
  rw [List.takeWhile_append_of_pos hds]
  cases rest with
  | nil => rw [List.takeWhile_nil, List.append_nil]
  | cons c rest => 
    rw [List.takeWhile_cons_of_neg (by rw [hrest c rfl]; exact Bool.false_ne_true), List.append_nil]

theorem dropWhile_append (hds : AllDigits ds) (hrest : NoDigitNext rest) :
    (ds ++ rest).dropWhile Char.isDigit = rest := by
  rw [List.dropWhile_append_of_pos hds]
  cases rest with
  | nil => rfl
  | cons c rest => rw [List.dropWhile_cons_of_neg (by rw [hrest c rfl]; exact Bool.false_ne_true)]

/-- Two rows of digits that end in the same text are the same. -/
theorem digits_append_inj (hds : AllDigits ds) (hes : AllDigits es) (hrest : NoDigitNext rest)
    (hrest' : NoDigitNext rest') (h : ds ++ rest = es ++ rest') : ds = es ∧ rest = rest' := by
  have htake := congrArg (List.takeWhile Char.isDigit) h
  have hdrop := congrArg (List.dropWhile Char.isDigit) h
  rw [takeWhile_append hds hrest, takeWhile_append hes hrest'] at htake
  rw [dropWhile_append hds hrest, dropWhile_append hes hrest'] at hdrop
  exact ⟨htake, hdrop⟩

/-! ## What a row of digits denotes -/

theorem ofDigits_eq (ds : List Char) : ofDigits ds = Nat.ofDigitChars 10 ds 0 := rfl

theorem ofDigits_toDigits (n : Nat) : ofDigits (Nat.toDigits 10 n) = n :=
  Nat.ofDigitChars_ten_toDigits

theorem ofDigits_append_zeros (ds : List Char) (n : Nat) :
    ofDigits (ds ++ List.replicate n '0') = 10 ^ n * ofDigits ds := by
  rw [ofDigits_eq, Nat.ofDigitChars_append, Nat.ofDigitChars_replicate_zero]
  rfl

theorem ofDigits_zeros_append (n : Nat) (ds : List Char) :
    ofDigits (List.replicate n '0' ++ ds) = ofDigits ds := by
  rw [ofDigits_eq, Nat.ofDigitChars_append, Nat.ofDigitChars_replicate_zero, Nat.mul_zero]
  rfl

end FormulaTable.Number
