import FormulaTable.Proofs.Stored.Value
import FormulaTable.Stored.Column
import FormulaTable.Stored.Engine
import FormulaTable.Stored.Rollup
import FormulaTable.Stored.Row

/-!
# Stored forms read back

The stored form of a value, a row, a column, the result of a rollup or the settings of an engine is
decoded as what was stored, and so is its text. Numbers have to read back from their numerals; for
everything else there is no condition, and the values of a row may be written in any order.
-/

namespace FormulaTable

open Json (Place optionalField)
open Formula (EngineOptions)

/-! ## Rows -/

namespace Cells

variable {cells : Cells} {entries : List (String × Value)}

/-- All numbers among the values read back from their numerals. -/
def NumbersReadBack (cells : Cells) : Prop := ∀ entry ∈ cells.toList, entry.2.NumberReadsBack

/-- Values by column as they are stored, in any order. -/
def entriesToJson (entries : List (String × Value)) : Json :=
  .record (entries.map fun (id, v) => (id, v.toJson))

theorem readable_entriesToJson (entries : List (String × Value)) : (entriesToJson entries).Readable :=
  Json.readable_record (List.forall_mem_map.mpr fun entry _ => entry.2.readable_toJson)

theorem ofList_perm (h : entries.Perm cells.toList) :
    Std.ExtTreeMap.ofList entries compare = cells := by
  have hdistinct : entries.Pairwise fun a b => ¬ compare a.1 b.1 = .eq := by
    refine (h.pairwise_iff ?_).mpr Std.ExtTreeMap.distinct_keys_toList
    exact fun hne heq => hne (Std.OrientedCmp.eq_comm.mp heq)
  -- with distinct ids the order in which the values are inserted does not show
  apply Std.ExtTreeMap.ext_getElem?
  intro id
  cases hvalue : cells[id]? with
  | some v =>
      have hmem := Std.ExtTreeMap.mem_toList_iff_getElem?_eq_some.mpr hvalue
      exact Std.ExtTreeMap.getElem?_ofList_of_mem Std.ReflCmp.compare_self hdistinct
        (h.mem_iff.mpr hmem)
  | none =>
      refine Std.ExtTreeMap.getElem?_ofList_of_contains_eq_false (Bool.eq_false_iff.mpr ?_)
      intro hcontains
      obtain ⟨⟨id, v⟩, hentry, rfl⟩ := List.mem_map.mp (List.contains_iff_mem.mp hcontains)
      rw [Std.ExtTreeMap.mem_toList_iff_getElem?_eq_some.mp (h.mem_iff.mp hentry)] at hvalue
      cases hvalue

theorem ofJson?_entriesToJson (p : Place) (h : entries.Perm cells.toList)
    (hnumbers : cells.NumbersReadBack) : ofJson? p (entriesToJson entries) = some cells := by
  have hentries : ∀ entry ∈ entries, Value.ofJson? (p.inside 1) entry.2.toJson = some entry.2 :=
    fun entry hentry => Value.ofJson?_toJson _ (hnumbers entry (h.mem_iff.mp hentry))
  unfold ofJson? entriesToJson
  rw [Json.toMap?_record hentries, Option.map_some, ofList_perm h]

end Cells

namespace Row

/-- The fields of a stored row, with its values in this order. -/
def fieldsWith (r : Row) (cells computed : List (String × Value)) : List (String × Json) :=
  [("id", .text r.id), ("cells", Cells.entriesToJson cells)] ++
    optionalField "computed" (if computed.isEmpty then none else some (Cells.entriesToJson computed))

/-- The JSON value is a stored form of the row, with its values in some order. -/
def StoredAs (r : Row) (j : Json) : Prop :=
  ∃ cells computed, cells.Perm r.cells.toList ∧ computed.Perm r.computed.toList ∧
    j = .record (r.fieldsWith cells computed)

theorem storedAs_toJson (r : Row) : r.StoredAs r.toJson := by
  refine ⟨r.cells.toList, r.computed.toList, .refl _, .refl _, ?_⟩
  unfold fieldsWith
  rw [Std.ExtTreeMap.isEmpty_toList]
  rfl

theorem readable_of_storedAs {r : Row} {j : Json} (h : r.StoredAs j) : j.Readable := by
  obtain ⟨cells, computed, -, -, rfl⟩ := h
  refine Json.readable_record ?_
  rw [fieldsWith, List.forall_mem_append]
  refine ⟨?_, Json.readable_optionalField fun j hj => ?_⟩
  · exact List.forall_mem_cons.mpr ⟨Json.readable_text _,
      List.forall_mem_singleton.mpr (Cells.readable_entriesToJson cells)⟩
  · split at hj
    · cases hj
    · cases hj
      exact Cells.readable_entriesToJson computed

theorem toFields?_storedAs (r : Row) (cells computed : List (String × Value)) :
    (Json.record (r.fieldsWith cells computed)).toFields? ["id", "cells", "computed"] =
      some (r.fieldsWith cells computed) := by
  refine Json.toFields?_record ?_ (by decide)
  unfold fieldsWith
  rw [List.map_append]
  exact (List.Sublist.refl ["id", "cells"]).append (Json.keys_optionalField_sublist ..)

theorem lookup_computed (r : Row) (cells computed : List (String × Value)) :
    (r.fieldsWith cells computed).lookup "computed" =
      if computed.isEmpty then none else some (Cells.entriesToJson computed) := by
  simp [fieldsWith, List.lookup_cons]

/-- A row is read back from its values in any order. -/
theorem ofJson?_of_storedAs (p : Place) {r : Row} {j : Json} (hj : r.StoredAs j)
    (hcells : r.cells.NumbersReadBack) (hcomputed : r.computed.NumbersReadBack) :
    ofJson? p j = some r := by
  obtain ⟨cells, computed, hcellsPerm, hcomputedPerm, rfl⟩ := hj
  have hid : Json.required? Json.toText? "id" (r.fieldsWith cells computed) = some r.id := rfl
  have hreadCells : Json.defaulted? (Cells.ofJson? (p.inside 1)) ∅ "cells"
      (r.fieldsWith cells computed) = some r.cells := by
    have hlookup : (r.fieldsWith cells computed).lookup "cells" =
        some (Cells.entriesToJson cells) := by
      simp [fieldsWith, List.lookup_cons]
    unfold Json.defaulted?
    rw [hlookup]
    exact Cells.ofJson?_entriesToJson _ hcellsPerm hcells
  have hreadComputed : Json.defaulted? (Cells.ofJson? (p.inside 1)) ∅ "computed"
      (r.fieldsWith cells computed) = some r.computed := by
    unfold Json.defaulted?
    rw [r.lookup_computed]
    by_cases hempty : computed.isEmpty
    · -- no values are left out, and a field that is not there reads as no values
      rw [if_pos hempty]
      rw [List.isEmpty_iff.mp hempty] at hcomputedPerm
      exact congrArg some (Cells.ofList_perm hcomputedPerm)
    · rw [if_neg hempty]
      exact Cells.ofJson?_entriesToJson _ hcomputedPerm hcomputed
  unfold ofJson?
  simp only [r.toFields?_storedAs, hid, hreadCells, hreadComputed, Option.bind_eq_bind,
    Option.bind_some]
  rfl

end Row

/-! ## Columns -/

theorem ColumnKind.ofName?_name (kind : ColumnKind) : ofName? kind.name = some kind := by
  cases kind <;> rfl

theorem Aggregation.ofExactName?_name (f : Aggregation) : ofExactName? f.name = some f := by
  cases f <;> rfl

theorem RollupConfig.ofJson?_toJson (p : Place) (c : RollupConfig) : ofJson? p c.toJson = some c := by
  have hfields : c.toJson.toFields? ["relation_column_id", "target_column_id", "function"] =
      some c.fields := Json.toFields?_record (.refl _) (by decide)
  have hrelation : Json.required? Json.toText? "relation_column_id" c.fields = some c.relation := rfl
  have htarget : Json.required? Json.toText? "target_column_id" c.fields = some c.target := by
    simp [Json.required?, fields, List.lookup_cons, Json.text, Json.toText?]
  have hfunction : Json.required? (fun j => (j.toName? p).bind Aggregation.ofExactName?) "function"
      c.fields = some c.aggregation := by
    simp [Json.required?, fields, List.lookup_cons, Json.text, Json.toName?,
      Aggregation.ofExactName?_name]
  unfold ofJson?
  simp only [hfields, hrelation, htarget, hfunction, Option.bind_eq_bind, Option.bind_some]
  rfl

theorem RollupConfig.readable_fields (c : RollupConfig) : ∀ field ∈ c.fields, field.2.Readable :=
  List.forall_mem_cons.mpr ⟨Json.readable_text _, List.forall_mem_cons.mpr
    ⟨Json.readable_text _, List.forall_mem_singleton.mpr (Json.readable_text _)⟩⟩

namespace ColumnConfig

theorem readable_toJson (c : ColumnConfig) : c.toJson.Readable := by
  refine Json.readable_record (List.forall_mem_cons.mpr ⟨Json.readable_text _, ?_⟩)
  cases c with
  | formula expression => exact List.forall_mem_singleton.mpr (Json.readable_text _)
  | rollup config => exact config.readable_fields
  | relation table =>
      refine List.forall_mem_singleton.mpr ?_
      cases table with
      | none => exact Json.readable_null
      | some table => exact Json.readable_text _
  | select choices =>
      exact List.forall_mem_singleton.mpr (Json.readable_array_map fun _ _ => Json.readable_text _)

/-- The fields of settings can be held a few levels below the top. -/
theorem holdable_fields {depth : Nat} (h : depth < Json.maxNesting) (c : ColumnConfig) :
    ∀ field ∈ c.kindAndFields.2, field.2.holdable depth = true := by
  intro field hfield
  cases c with
  | formula expression =>
      cases List.mem_singleton.mp hfield
      rfl
  | rollup config =>
      simp only [kindAndFields, RollupConfig.fields, List.mem_cons, List.not_mem_nil,
        or_false] at hfield
      rcases hfield with rfl | rfl | rfl
      · rfl
      · rfl
      · rfl
  | relation table =>
      cases List.mem_singleton.mp hfield
      cases table with
      | none => rfl
      | some table => rfl
  | select choices =>
      cases List.mem_singleton.mp hfield
      refine Bool.and_eq_true_iff.mpr ⟨decide_eq_true h, Json.holdableItems_of_forall ?_⟩
      exact List.forall_mem_map.mpr fun _ _ => rfl

theorem toKindAndFields?_toJson {p : Place} (hp : p.depth + 1 < Json.maxNesting) (c : ColumnConfig) :
    c.toJson.toKindAndFields? p = some (c.kindAndFields.1, .record c.kindAndFields.2) := by
  have hkeys : ∀ field ∈ c.kindAndFields.2, field.1 ≠ "kind" := by
    cases c <;> simp [kindAndFields, RollupConfig.fields]
  exact Json.toKindAndFields?_record hkeys (c.holdable_fields hp)

theorem ofJson?_toJson {p : Place} (hp : p.depth + 1 < Json.maxNesting) (c : ColumnConfig) :
    ofJson? p c.toJson = some c := by
  unfold ofJson?
  rw [toKindAndFields?_toJson hp, Option.bind_eq_bind, Option.bind_some]
  -- every kind but the rollups has one field
  have hsingle (name : String) (j : Json) :
      (Json.record [(name, j)]).toFields? [name] = some [(name, j)] :=
    Json.toFields?_record (.refl _) (List.nodup_singleton name)
  cases c with
  | formula expression =>
      simp only [kindAndFields, hsingle]
      rfl
  | rollup config =>
      simp only [kindAndFields]
      change (RollupConfig.ofJson? _ config.toJson).bind _ = _
      rw [config.ofJson?_toJson]
      rfl
  | relation table =>
      have htable : Json.optional? Json.toText? "target_table_id"
          [("target_table_id", (table.map .text).getD .null)] = some table := by
        unfold Json.optional? Json.defaulted?
        rw [List.lookup_cons_self]
        exact Json.toOption?_getD_map (fun _ => rfl) nofun
      simp only [kindAndFields, hsingle, htable, Option.bind_eq_bind, Option.bind_some]
      rfl
  | select choices =>
      have hchoices : Json.defaulted? (Json.toList? Json.toText?) [] "options"
          [("options", .array (choices.map .text))] = some choices := by
        unfold Json.defaulted?
        rw [List.lookup_cons_self]
        exact Json.toList?_array fun _ _ => rfl
      simp only [kindAndFields, hsingle, hchoices, Option.bind_eq_bind, Option.bind_some]
      rfl

end ColumnConfig

namespace Column

/-- The fields of a stored column. -/
def fields (c : Column) : List (String × Json) :=
  [("id", .text c.id), ("name", .text c.name), ("type", .text c.kind.name)] ++
    optionalField "config" (c.config.map ColumnConfig.toJson)

theorem readable_toJson (c : Column) : c.toJson.Readable := by
  refine Json.readable_record ?_
  rw [List.forall_mem_append]
  refine ⟨?_, Json.readable_optionalField fun j hj => ?_⟩
  · exact List.forall_mem_cons.mpr ⟨Json.readable_text _, List.forall_mem_cons.mpr
      ⟨Json.readable_text _, List.forall_mem_singleton.mpr (Json.readable_text _)⟩⟩
  · obtain ⟨config, -, rfl⟩ := Option.map_eq_some_iff.mp hj
    exact config.readable_toJson

theorem toFields?_toJson (c : Column) :
    c.toJson.toFields? ["id", "name", "type", "config"] = some c.fields := by
  refine Json.toFields?_record ?_ (by decide)
  rw [List.map_append]
  exact (List.Sublist.refl ["id", "name", "type"]).append (Json.keys_optionalField_sublist ..)

theorem ofJson?_toJson {p : Place} (hp : p.depth + 2 < Json.maxNesting) (c : Column) :
    ofJson? p c.toJson = some c := by
  have hid : Json.required? Json.toText? "id" c.fields = some c.id := rfl
  have hname : Json.required? Json.toText? "name" c.fields = some c.name := by
    simp [Json.required?, fields, List.lookup_cons, Json.text, Json.toText?]
  have hkind : Json.required? (fun j => (j.toName? p).bind ColumnKind.ofName?) "type" c.fields =
      some c.kind := by
    simp [Json.required?, fields, List.lookup_cons, Json.text, Json.toName?,
      ColumnKind.ofName?_name]
  have hlookup : c.fields.lookup "config" = c.config.map ColumnConfig.toJson := by
    simp [fields, List.lookup_cons]
  have hconfig : Json.optional? (ColumnConfig.ofJson? (p.inside 1)) "config" c.fields =
      some c.config :=
    Json.optional?_of_lookup hlookup (ColumnConfig.ofJson?_toJson hp) nofun
  unfold ofJson?
  simp only [c.toFields?_toJson, hid, hname, hkind, hconfig, Option.bind_eq_bind, Option.bind_some]
  rfl

end Column

/-! ## Results of rollups -/

namespace RollupResult

/-- All numbers in the result read back from their numerals. -/
def NumbersReadBack : RollupResult → Prop
  | number x => Json.Numeral.ReadsBack x
  | null => True
  | values vs => ∀ v ∈ vs, v.NumberReadsBack

/-- The type of a stored result. -/
def kindName : RollupResult → String
  | number _ => "number"
  | null => "null"
  | values _ => "values"

/-- The stored content of a result. -/
def content : RollupResult → Option Json
  | number x => some (.ofFloat x)
  | null => none
  | values vs => some (.array (vs.map Value.toJson))

theorem toJson_eq_tagged (r : RollupResult) :
    r.toJson = .record (("type", .text r.kindName) :: optionalField "value" r.content) := by
  cases r <;> rfl

theorem readable_toJson (r : RollupResult) : r.toJson.Readable := by
  rw [toJson_eq_tagged]
  refine Json.readable_tagged fun j hj => ?_
  cases r with
  | number x =>
      cases hj
      exact Json.readable_ofFloat x
  | null => cases hj
  | values vs =>
      cases hj
      exact Json.readable_array_map fun v _ => v.readable_toJson

theorem ofJson?_toJson (p : Place) {r : RollupResult} (h : r.NumbersReadBack) :
    ofJson? p r.toJson = some r := by
  unfold ofJson?
  rw [toJson_eq_tagged, Json.toTagged?_record, Option.bind_eq_bind, Option.bind_some]
  cases r with
  | number x =>
      simp only [kindName]
      exact congrArg (Option.map number) (Json.toFloat?_ofFloat h)
  | null => rfl
  | values vs =>
      simp only [kindName]
      exact congrArg (Option.map values)
        (Json.toList?_array fun v hv => Value.ofJson?_toJson _ (h v hv))

end RollupResult

/-! ## Settings of engines -/

namespace Formula.EngineOptions

theorem ofJson?_toJson {o : EngineOptions} (h : o.maxDepth < 2 ^ 64) : ofJson? o.toJson = some o := by
  have hfields : o.toJson.toFields? ["max_depth", "cache_enabled"] =
      some [("max_depth", .ofNat o.maxDepth), ("cache_enabled", .boolean o.remembers)] :=
    Json.toFields?_record (.refl _) (by decide)
  have hdepth : Json.defaulted? Json.toWord? ({} : EngineOptions).maxDepth "max_depth"
      [("max_depth", .ofNat o.maxDepth), ("cache_enabled", .boolean o.remembers)] =
        some o.maxDepth := by
    unfold Json.defaulted?
    rw [List.lookup_cons_self]
    exact Json.Numeral.toWord?_ofNat h
  have hremembers : Json.defaulted? Json.toBool? ({} : EngineOptions).remembers "cache_enabled"
      [("max_depth", .ofNat o.maxDepth), ("cache_enabled", .boolean o.remembers)] =
        some o.remembers := rfl
  unfold ofJson?
  simp only [hfields, hdepth, hremembers, Option.bind_eq_bind, Option.bind_some]
  rfl

theorem readable_toJson (o : EngineOptions) : o.toJson.Readable :=
  Json.readable_record (List.forall_mem_cons.mpr ⟨Json.readable_ofNat _,
    List.forall_mem_singleton.mpr (Json.readable_boolean _)⟩)

end Formula.EngineOptions

/-! ## Texts -/

/-- What the text of a JSON value is decoded as. -/
def Json.reread? {α : Type} (decode : Json → Option α) (j : Json) : Option α :=
  (ofText? j.compact).bind decode

theorem Json.reread?_eq_some {α : Type} {decode : Json → Option α} {j : Json} {a : α}
    (hj : j.Readable) (h : decode j = some a) : j.reread? decode = some a := by
  unfold reread?
  rw [ofText?_compact hj, Option.bind_some, h]

/-- A row with a number, a leap second before the year 0, a list of texts and a reference to a file,
and with a computed number. -/
def ledger : Row :=
  let leap : Calendar.Instant :=
    ⟨-800000, 86399, 1500000000, by decide, by decide, by decide, by decide⟩
  let file : Reference := { kind := .file, id := "f", name := none, url := some "file:///a" }
  (((((Row.empty "r").setCell "n" (.number 2.5)).setCell "d" (.date leap)).setCell "o"
    (.options ["a\n", "\"b\""])).setCell "f" (.references [file])).setComputed "k" (.number (-0.0))

end FormulaTable
