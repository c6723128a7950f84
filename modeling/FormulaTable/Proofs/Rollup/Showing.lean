import FormulaTable.Proofs.Rollup.Key
import FormulaTable.Rollup.Aggregation
import Mathlib.Data.Finset.Dedup
import Mathlib.Data.Finset.Card
import Mathlib.Data.List.FinRange

/-!
# Rollups that show and rollups that count

An entry is either empty or shown, and the different keys among the entries are counted by those
shown for the first time and those that only empty entries have. The key of an entry tells if it is
empty, so no key is counted twice.
-/

namespace FormulaTable

namespace Value

variable {v w : Value}

/-! ## The first entry of each key -/

/-- No earlier value of the list has the key of the value at this place. -/
def IsFirst (vs : List Value) (i : Fin vs.length) : Prop :=
  ∀ j < i, (vs.get j).key ≠ (vs.get i).key

instance (vs : List Value) : DecidablePred (IsFirst vs) :=
  fun i => inferInstanceAs (Decidable (∀ j < i, _))

/-- The places of a list where a key occurs first. -/
def firstPlaces (vs : List Value) : List (Fin vs.length) :=
  (List.finRange vs.length).filter (IsFirst vs)

theorem isFirst_zero (v : Value) (vs : List Value) : IsFirst (v :: vs) 0 :=
  fun j hj => absurd hj (Fin.not_lt_zero j)

/-- After the first place a key must also differ from the first one. -/
theorem isFirst_succ {vs : List Value} (i : Fin vs.length) :
    IsFirst (v :: vs) i.succ ↔ (vs.get i).key ≠ v.key ∧ IsFirst vs i := by
  constructor
  · intro h
    exact ⟨(h 0 (Fin.succ_pos i)).symm, fun j hj => h j.succ (Fin.succ_lt_succ_iff.mpr hj)⟩
  · rintro ⟨hne, h⟩ j
    cases j using Fin.cases with
    | zero => exact fun _ => hne.symm
    | succ j => exact fun hj => h j (Fin.succ_lt_succ_iff.mp hj)

theorem firstPlaces_cons (v : Value) (vs : List Value) : firstPlaces (v :: vs) =
    0 :: ((firstPlaces vs).filter fun i => (vs.get i).key ≠ v.key).map Fin.succ := by
  have hplaces : List.finRange (v :: vs).length = 0 :: (List.finRange vs.length).map Fin.succ :=
    List.finRange_succ
  unfold firstPlaces
  rw [hplaces, List.filter_cons, if_pos (decide_eq_true (isFirst_zero v vs)), List.filter_map,
    List.filter_filter]
  congr 2
  refine List.filter_congr fun i _ => ?_
  simp [isFirst_succ]

/-- **The values without those whose key an earlier one has stand at the places where a key occurs
first.** -/
theorem firstPerKey_eq (vs : List Value) : firstPerKey vs = (firstPlaces vs).map vs.get := by
  induction vs with
  | nil => rfl
  | cons v vs ih =>
      rw [firstPerKey, ih, firstPlaces_cons, List.map_cons, List.map_map, List.filter_map]
      rfl

/-! ## Different keys -/

theorem keys_firstPerKey_cons (v : Value) (vs : List Value) : (firstPerKey (v :: vs)).map key =
    v.key :: ((firstPerKey vs).map key).filter (· ≠ v.key) := by
  rw [firstPerKey, List.map_cons, List.filter_map]
  rfl

/-- Every key is kept ... -/
theorem mem_keys_firstPerKey {k : String} (vs : List Value) :
    k ∈ (firstPerKey vs).map key ↔ k ∈ vs.map key := by
  induction vs with
  | nil => rfl
  | cons v vs ih =>
      rw [keys_firstPerKey_cons, List.map_cons, List.mem_cons, List.mem_cons, List.mem_filter, ih]
      by_cases h : k = v.key
      · simp [h]
      · simp [h]

/-- ... and kept once. -/
theorem nodup_keys_firstPerKey (vs : List Value) : ((firstPerKey vs).map key).Nodup := by
  induction vs with
  | nil => exact List.nodup_nil
  | cons v vs ih =>
      rw [keys_firstPerKey_cons, List.nodup_cons]
      exact ⟨by simp, ih.filter _⟩

/-- So many values are kept as there are different keys. -/
theorem length_firstPerKey (vs : List Value) :
    (firstPerKey vs).length = (vs.map key).toFinset.card := by
  have hkeys : (vs.map key).toFinset = ((firstPerKey vs).map key).toFinset := by
    ext k
    rw [List.mem_toFinset, List.mem_toFinset, mem_keys_firstPerKey]
  rw [hkeys, List.toFinset_card_of_nodup (nodup_keys_firstPerKey vs), List.length_map]

/-! ## Empty values -/

/-- The key of a value tells if it is empty. -/
theorem isEmpty_eq_of_key_eq (h : v.key = w.key) : v.isEmpty = w.isEmpty := by
  have hletter : v.keyLetter = w.keyLetter := by
    rw [← Option.some_inj, ← head?_key, ← head?_key, h]
  -- only texts and lists may be empty or not, and these are told in full by their keys
  cases v with
  | null =>
    cases w with
    | null => rfl
    | _ => simp [keyLetter] at hletter
  | text s =>
    cases w with
    | text t => rw [key_text_inj h]
    | _ => simp [keyLetter] at hletter
  | options xs =>
    cases w with
    | options ys => rw [key_options_inj h]
    | references rs => exact absurd h (key_options_ne_key_references xs rs)
    | _ => simp [keyLetter] at hletter
  | references rs =>
    cases w with
    | references ss => rw [key_references_inj h]
    | options xs => exact absurd h.symm (key_options_ne_key_references xs rs)
    | _ => simp [keyLetter] at hletter
  | number x | boolean b | date t =>
    cases w with
    | null | text s | options ys | references ss => simp [keyLetter] at hletter
    | _ => rfl

/-- No empty value has the key of one that is not. -/
theorem disjoint_keys (vs : List Value) :
    Disjoint ((vs.filter fun v => !v.isEmpty).map key).toFinset
      ((vs.filter isEmpty).map key).toFinset := by
  refine Finset.disjoint_left.mpr fun k hshown hempty => ?_
  simp only [List.mem_toFinset, List.mem_map, List.mem_filter, Bool.not_eq_true'] at hshown hempty
  obtain ⟨v, ⟨-, hv⟩, rfl⟩ := hshown
  obtain ⟨w, ⟨-, hw⟩, hkey⟩ := hempty
  rw [← isEmpty_eq_of_key_eq hkey, hw] at hv
  cases hv

/-- The different keys are those of the values that are not empty and those of the empty ones. -/
theorem card_keys (vs : List Value) : (vs.map key).toFinset.card =
    ((vs.filter fun v => !v.isEmpty).map key).toFinset.card +
      ((vs.filter isEmpty).map key).toFinset.card := by
  rw [← Finset.card_union_of_disjoint (disjoint_keys vs), ← List.toFinset_append,
    ← List.map_append]
  congr 1
  ext k
  rw [List.mem_toFinset, List.mem_toFinset]
  exact ((List.filter_append_perm isEmpty vs).symm.trans List.perm_append_comm).map key |>.mem_iff

end Value

/-! ## The rollups -/

namespace Entries

/-- The number of entries that a row gives: one, but one for each option in a column of options, where
a row without options still gives one. -/
def countOfRow (target : Column) (row : Row) : Nat :=
  match target.kind, row.value target with
  | .multiSelect, .options items => max 1 items.length
  | _, _ => 1

theorem length_ofOptions (items : List String) :
    (ofOptions items).length = max 1 items.length := by
  cases items with
  | nil => rfl
  | cons item items =>
      show ((item :: items).map Value.text).length = max 1 (item :: items).length
      rw [List.length_map, List.length_cons, Nat.max_eq_right (Nat.le_add_left 1 _)]

theorem length_ofRow (target : Column) (row : Row) :
    (ofRow target row).length = countOfRow target row := by
  unfold ofRow countOfRow
  generalize target.kind = kind
  generalize row.value target = v
  cases kind with
  | multiSelect =>
      cases v with
      | options items => exact length_ofOptions items
      | _ => rfl
  | _ => rfl

theorem length_ofRows (target : Column) (rows : List Row) :
    (ofRows target rows).values.length = (rows.map (countOfRow target)).sum := by
  unfold ofRows
  rw [List.length_flatMap]
  simp only [length_ofRow]

/-- An entry is empty or not. -/
theorem length_empty_add_length_filled (e : Entries) :
    (e.values.filter Value.isEmpty).length + e.filled.length = e.values.length := by
  rw [filled, ← List.length_append]
  exact (List.filter_append_perm Value.isEmpty e.values).length_eq

end Entries

open RollupResult in
/-- **Rollups that show and rollups that count agree.** The empty entries and the others make up all
entries. Shown are the entries that are not empty, in their order; shown once are those of them at
the places where a key occurs first, which has every key once. Different values are counted by the
entries shown once and the different keys among the empty entries. Every row gives one entry, other
than a list of options in a column of options, which gives one for each. -/
theorem showing_and_counting_agree (config : RollupConfig) (target : Column) (rows : List Row) :
    let entries := (Entries.ofRows target rows).values
    let empty := entries.filter Value.isEmpty
    let shown := entries.filter fun v => !v.isEmpty
    let shownOnce := (Value.firstPlaces shown).map shown.get
    let result (a : Aggregation) := { config with aggregation := a }.calculate target rows
    result .countEmpty = ofCount empty.length ∧
      result .countNotEmpty = ofCount shown.length ∧
      empty.length + shown.length = entries.length ∧
      result .showOriginal = values shown ∧
      result .showUnique = values shownOnce ∧
      (∀ v ∈ shown, (shownOnce.map Value.key).count v.key = 1) ∧
      result .countUnique = ofCount (shownOnce.length + (empty.map Value.key).toFinset.card) ∧
      entries.length = (rows.map (Entries.countOfRow target)).sum := by
  intro entries empty shown shownOnce result
  have hall : empty.length + shown.length = entries.length :=
    Entries.length_empty_add_length_filled (Entries.ofRows target rows)
  have honce : shownOnce = Value.firstPerKey shown := (Value.firstPerKey_eq shown).symm
  refine ⟨?_, rfl, hall, rfl, ?_, ?_, ?_, Entries.length_ofRows target rows⟩
  · show ofCount (entries.length - shown.length) = ofCount empty.length
    rw [← hall, Nat.add_sub_cancel]
  · rw [honce]
    rfl
  · intro v hv
    rw [honce]
    refine List.count_eq_one_of_mem (Value.nodup_keys_firstPerKey shown) ?_
    exact (Value.mem_keys_firstPerKey shown).mpr (List.mem_map_of_mem hv)
  · show ofCount (Value.firstPerKey entries).length = _
    rw [honce, Value.length_firstPerKey, Value.length_firstPerKey, Value.card_keys]

end FormulaTable
