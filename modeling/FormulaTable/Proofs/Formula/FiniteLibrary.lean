import FormulaTable.Formula.Evaluation
import FormulaTable.Proofs.Calendar.Number
import FormulaTable.Proofs.Number.Choice
import FormulaTable.Proofs.Number.DecimalPlaces
import FormulaTable.Proofs.Result

/-!
# Finite values

Operators and built-in functions make finite values of finite values. What may overflow is guarded, and
what is not guarded is one of the operands, a count, or a number of a date.
-/

namespace FormulaTable

open Calendar (Instant TimeUnit Fault)

/-! ## Values -/

namespace Value

/-- The value is no infinity, and not what is not a number. -/
def IsFinite : Value → Prop
  | number x => x.isFinite = true
  | _ => True

variable {v w : Value} {x : Float}

@[simp] theorem isFinite_null : null.IsFinite := trivial

@[simp] theorem isFinite_text (s : String) : (text s).IsFinite := trivial

@[simp] theorem isFinite_ofChars (s : List Char) : (ofChars s).IsFinite := trivial

@[simp] theorem isFinite_boolean (b : Bool) : (boolean b).IsFinite := trivial

@[simp] theorem isFinite_instant (t : Instant) : (date t).IsFinite := trivial

@[simp] theorem isFinite_options (items : List String) : (options items).IsFinite := trivial

@[simp] theorem isFinite_finite (x : Float) : (finite x).IsFinite := by
  unfold finite
  split
  · assumption
  · trivial

@[simp] theorem isFinite_ofOption {α : Type} {f : α → Value} {o : Option α}
    (h : ∀ a, o = some a → (f a).IsFinite) : (ofOption f o).IsFinite := by
  cases o with
  | none => trivial
  | some a => exact h a rfl

theorem isFinite_finiteNumber? {s : String} (h : finiteNumber? s = some x) : x.isFinite = true := by
  unfold finiteNumber? at h
  exact (Option.filter_eq_some_iff.mp h).2

/-- A finite value is read as a finite number. -/
theorem IsFinite.toNumber? (hv : v.IsFinite) (h : v.toNumber? = some x) : x.isFinite = true := by
  cases v with
  | number y =>
      obtain rfl := Option.some.inj h
      exact hv
  | boolean b =>
      obtain rfl := Option.some.inj h
      cases b <;> decide
  | text s => exact isFinite_finiteNumber? h
  | date t =>
      obtain rfl := Option.some.inj h
      exact t.atMost_toNumber.isFinite
  | null | options | references => cases h

@[simp] theorem isFinite_arithmetic (op : Float → Float → Float) : (arithmetic op v w).IsFinite := by
  unfold arithmetic
  split
  · exact isFinite_finite _
  · trivial

@[simp] theorem isFinite_add : (add v w).IsFinite := by
  unfold add
  split
  · trivial
  · exact isFinite_arithmetic _

@[simp] theorem isFinite_divide : (divide v w).IsFinite := by
  unfold divide
  split
  · trivial
  · exact isFinite_arithmetic _

@[simp] theorem isFinite_modulo : (modulo v w).IsFinite := by
  unfold modulo
  split
  · trivial
  · exact isFinite_arithmetic _

@[simp] theorem isFinite_plus (hv : v.IsFinite) : v.plus.IsFinite :=
  isFinite_ofOption fun _ hx => hv.toNumber? hx

@[simp] theorem isFinite_negate (hv : v.IsFinite) : v.negate.IsFinite := by
  refine isFinite_ofOption ?_
  intro x hx
  exact Number.isFinite_neg (hv.toNumber? hx)

end Value

namespace Formula

open Value (isFinite_ofOption)

/-! ## Operators -/

theorem BinaryOp.isFinite_apply (op : BinaryOp) (v w : Value) : (op.apply v w).IsFinite := by
  cases op with
  | add => exact Value.isFinite_add
  | subtract | multiply => exact Value.isFinite_arithmetic _
  | divide => exact Value.isFinite_divide
  | modulo => exact Value.isFinite_modulo
  | equal | notEqual | less | lessEqual | greater | greaterEqual | and | or => trivial

theorem UnaryOp.isFinite_apply (op : UnaryOp) {v : Value} (hv : v.IsFinite) :
    (op.apply v).IsFinite := by
  cases op with
  | not => trivial
  | negate => exact Value.isFinite_negate hv
  | plus => exact Value.isFinite_plus hv

/-! ## Functions -/

/-- The built-in function makes finite values of finite values, at every time. -/
def Builtin.KeepsFinite (b : Builtin) : Prop :=
  ∀ now args v, (∀ v ∈ args, v.IsFinite) → b.run now args = .ok v → v.IsFinite

namespace Builtin

@[simp] theorem keepsFinite_pure {name : String} {arity : Arity} {f : List Value → Value} :
    (pure name arity f).KeepsFinite ↔
      ∀ args, (∀ v ∈ args, v.IsFinite) → (f args).IsFinite := by
  constructor
  · intro h args hargs
    exact h ⟨0, 0, 0, by decide, by decide, by decide, by decide⟩ args _ hargs rfl
  · intro h now args v hargs hv
    obtain rfl := Except.ok.inj hv
    exact h args hargs

@[simp] theorem keepsFinite_timed {name : String} {f : Instant → Value} :
    (timed name f).KeepsFinite ↔ ∀ now, (f now).IsFinite := by
  constructor
  · intro h now
    exact h now [] _ (List.forall_mem_nil _) rfl
  · intro h now args v _ hv
    obtain rfl := Except.ok.inj hv
    exact h now

end Builtin

theorem isFinite_arg {args : List Value} (h : ∀ v ∈ args, v.IsFinite) (i : Nat) :
    (arg args i).IsFinite := by
  rw [arg, List.getD_eq_getElem?_getD]
  cases hi : args[i]? with
  | none => trivial
  | some v => exact h v (List.mem_of_getElem? hi)

@[simp] theorem isFinite_onNumber (f : Float → Float) (args : List Value) : (onNumber f args).IsFinite :=
  isFinite_ofOption fun x _ => Value.isFinite_finite (f x)

@[simp] theorem isFinite_onNumberIf (test : Float → Bool) (f : Float → Float) (args : List Value) :
    (onNumberIf test f args).IsFinite :=
  isFinite_ofOption fun x _ => Value.isFinite_finite (f x)

namespace Library

variable {args : List Value}

/-! ## Functions of numbers -/

@[simp] theorem isFinite_round (args : List Value) : (round args).IsFinite := by
  unfold round
  split
  · trivial
  · split
    · split
      · exact isFinite_ofOption fun y hy => Number.round_isFinite hy
      · trivial
    · exact isFinite_ofOption fun y hy => Number.round_isFinite hy

theorem isFinite_of_mem_numbersAmong (hargs : ∀ v ∈ args, v.IsFinite) {x : Float}
    (hx : x ∈ numbersAmong args) : x.isFinite = true := by
  unfold numbersAmong at hx
  obtain ⟨v, hv, hx⟩ := List.mem_flatMap.mp hx
  split at hx
  · obtain ⟨s, -, hs⟩ := List.mem_filterMap.mp hx
    exact Value.isFinite_finiteNumber? hs
  · exact (hargs v hv).toNumber? (Option.mem_toList.mp hx)

/-- What is chosen is one of the numbers. -/
theorem reduce?_mem {r : ℚ → ℚ → Prop} [IsLinearOrder ℚ r] {choose : Float → Float → Float}
    (hchoose : Number.Chooses r choose) {xs : List Float} {y : Float}
    (h : reduce? choose xs = some y) : y ∈ xs := by
  cases xs with
  | nil => cases h
  | cons x xs =>
      obtain rfl := Option.some.inj h
      exact (hchoose.isBest_foldl x xs).mem

@[simp] theorem isFinite_min (hargs : ∀ v ∈ args, v.IsFinite) : (min args).IsFinite :=
  isFinite_ofOption fun _ hy => isFinite_of_mem_numbersAmong hargs (reduce?_mem Number.chooses_least hy)

@[simp] theorem isFinite_max (hargs : ∀ v ∈ args, v.IsFinite) : (max args).IsFinite :=
  isFinite_ofOption fun _ hy =>
    isFinite_of_mem_numbersAmong hargs (reduce?_mem Number.chooses_greatest hy)

/-! ## Functions of texts -/

@[simp] theorem isFinite_ofCount (n : Nat) : (ofCount n).IsFinite := Number.isFinite_toFloat n.toUInt64

@[simp] theorem isFinite_slice (args : List Value) : (slice args).IsFinite := by
  unfold slice
  dsimp only
  split
  · trivial
  · split
    · split
      · trivial
      · trivial
    · trivial

@[simp] theorem isFinite_format (args : List Value) : (format args).IsFinite := by
  unfold format
  split
  · trivial
  · trivial

@[simp] theorem isFinite_toNumber (hargs : ∀ v ∈ args, v.IsFinite) : (toNumber args).IsFinite :=
  Value.isFinite_plus (isFinite_arg hargs 0)

/-! ## Functions of truth values -/

@[simp] theorem isFinite_choose (hargs : ∀ v ∈ args, v.IsFinite) : (choose args).IsFinite := by
  unfold choose
  split
  · exact isFinite_arg hargs 1
  · exact isFinite_arg hargs 2

@[simp] theorem isFinite_coalesce (hargs : ∀ v ∈ args, v.IsFinite) : (coalesce args).IsFinite := by
  unfold coalesce
  cases h : args.find? (!·.isNull) with
  | none => trivial
  | some v => exact hargs v (List.mem_of_find?_eq_some h)

/-! ## Functions of dates -/

@[simp] theorem isFinite_ofInstant (t : Option Instant) : (ofInstant t).IsFinite :=
  isFinite_ofOption fun _ _ => trivial

@[simp] theorem isFinite_dateBetween (args : List Value) : (dateBetween args).IsFinite := by
  unfold dateBetween
  split
  · exact Instant.difference_isFinite ..
  · trivial

@[simp] theorem isFinite_move (factor : Float) (args : List Value) : (move factor args).IsFinite := by
  unfold move
  split
  · exact isFinite_ofInstant _
  · trivial

@[simp] theorem isFinite_date (args : List Value) : (date args).IsFinite := by
  unfold date
  split
  · exact isFinite_ofInstant _
  split
  · trivial
  · exact isFinite_ofInstant _

/-- The numbers of dates are not too great. -/
theorem isFinite_part {f : Instant → Int} (hf : ∀ t, (f t).natAbs ≤ 2 ^ 53)
    (args : List Value) : (part f args).IsFinite :=
  isFinite_ofOption fun t _ => (Number.AtMost.ofInt (hf t) (by decide)).isFinite

@[simp] theorem keepsFinite_bound (name : String) (arity : Arity)
    (f : Instant → TimeUnit → Except Fault (Option Instant)) :
    Builtin.KeepsFinite { name, arity, run := fun _ => bound f } := by
  intro now args v hargs hv
  change bound f args = .ok v at hv
  unfold bound at hv
  split at hv
  · next t unit _ _ =>
    obtain ⟨u, -, rfl⟩ := map_eq_ok hv
    exact isFinite_ofInstant u
  · obtain rfl := Except.ok.inj hv
    trivial

/-! ## The library -/

theorem keepsFinite_math : ∀ b ∈ math, b.KeepsFinite := by
  simp +contextual [math, onTwo, Value.subtract, Value.multiply]

theorem keepsFinite_texts : ∀ b ∈ texts, b.KeepsFinite := by
  simp +contextual [texts, concat, length, contains, replace, replaceFirst, onText, split, startsWith,
    endsWith, indexOf, replicate, pad]

theorem keepsFinite_logic : ∀ b ∈ logic, b.KeepsFinite := by
  simp +contextual [logic, all, any, negation, empty, onTwo, equal, unequal, Value.ordered]

theorem keepsFinite_dates : ∀ b ∈ dates, b.KeepsFinite := by
  -- these hand a field of the date on without a guard
  have hyear := isFinite_part (f := fun t => t.civil.year) fun t => t.year_natAbs_le.trans (by decide)
  have hmonth := isFinite_part (f := fun t => t.civil.month) fun t => t.month_le.trans (by decide)
  have hday := isFinite_part (f := fun t => t.civil.day) fun t => t.day_le.trans (by decide)
  have hweekday := isFinite_part (f := fun t => t.weekday) fun t => t.weekday_lt.le.trans (by decide)
  have hhour := isFinite_part (f := fun t => t.hour) fun t => t.hour_lt.le.trans (by decide)
  have hminute := isFinite_part (f := fun t => t.minute) fun t => t.minute_lt.le.trans (by decide)
  have hsecond := isFinite_part (f := fun t => t.secondOfMinute) fun t =>
    t.secondOfMinute_lt.le.trans (by decide)
  have htimestamp := isFinite_part fun t => t.epochMillis_natAbs_lt.le
  simp +contextual [dates, today, formatDate, hyear, hmonth, hday, hweekday, hhour, hminute, hsecond,
    htimestamp]

end Library

/-- **Built-in functions make finite values of finite values.** -/
theorem library_keepsFinite : ∀ b ∈ library, b.KeepsFinite := by
  unfold library
  simp only [List.forall_mem_append]
  exact ⟨⟨⟨Library.keepsFinite_math, Library.keepsFinite_texts⟩, Library.keepsFinite_logic⟩,
    Library.keepsFinite_dates⟩

end Formula

end FormulaTable
