/-!
# Steps that succeed and steps that fail

Where a computation of several steps succeeds, each of its steps does; where it fails, one of them
is the first to fail. Steps may be grouped in any way.
-/

namespace FormulaTable

variable {ε α β γ : Type}

theorem bind_eq_ok {m : Except ε α} {f : α → Except ε β} {b : β} (h : m.bind f = .ok b) :
    ∃ a, m = .ok a ∧ f a = .ok b := by
  cases m with
  | error _ => cases h
  | ok a => exact ⟨a, rfl, h⟩

theorem bind_eq_error {m : Except ε α} {f : α → Except ε β} {e : ε} (h : m.bind f = .error e) :
    m = .error e ∨ ∃ a, m = .ok a ∧ f a = .error e := by
  cases m with
  | error _ =>
      cases h
      exact .inl rfl
  | ok a => exact .inr ⟨a, rfl, h⟩

theorem map_eq_ok {m : Except ε α} {f : α → β} {b : β} (h : m.map f = .ok b) :
    ∃ a, m = .ok a ∧ f a = b := by
  cases m with
  | error _ => cases h
  | ok a =>
      cases h
      exact ⟨a, rfl, rfl⟩

theorem bind_bind (m : Except ε α) (f : α → Except ε β) (g : β → Except ε γ) :
    (m.bind f).bind g = m.bind fun a => (f a).bind g := by
  cases m <;> rfl

theorem bind_map (m : Except ε α) (f : α → β) (g : β → Except ε γ) :
    (m.map f).bind g = m.bind fun a => g (f a) := by
  cases m <;> rfl

theorem map_bind (m : Except ε α) (f : α → Except ε β) (g : β → γ) :
    (m.bind f).map g = m.bind fun a => (f a).map g := by
  cases m <;> rfl

end FormulaTable
