import FormulaTable.Proofs.Calendar.Reading
import FormulaTable.Proofs.Json.Decoding
import FormulaTable.Proofs.Json.Numeral
import FormulaTable.Stored.Value

/-!
# Stored values read back

The stored form of a reference is decoded as the reference, and that of a value as the value; a number
has to read back from its numeral. So different values have different stored forms.
-/

namespace FormulaTable

open Json (Place optionalField)

/-! ## Records -/

namespace Json

variable {a : Option Json}

theorem readable_optionalField (h : ∀ j ∈ a, j.Readable) :
    ∀ field ∈ optionalField name a, field.2.Readable := by
  intro field hfield
  cases a with
  | none => cases hfield
  | some j =>
    cases List.mem_singleton.mp hfield
    exact h j rfl

theorem readable_tagged {tag : String} (h : ∀ j ∈ a, j.Readable) :
    (record (("type", .text tag) :: optionalField "value" a)).Readable :=
  readable_record (List.forall_mem_cons.mpr ⟨readable_text tag, readable_optionalField h⟩)

end Json

/-! ## References -/

theorem ReferenceKind.ofName?_name (kind : ReferenceKind) : ofName? kind.name = some kind := by
  cases kind <;> rfl

namespace Reference

/-- The fields of a stored reference. -/
def fields (r : Reference) : List (String × Json) :=
  [("kind", .text r.kind.name), ("id", .text r.id)] ++
    optionalField "name" (r.name.map .text) ++ optionalField "url" (r.url.map .text)

theorem readable_toJson (r : Reference) : r.toJson.Readable := by
  have htext (s : Option String) : ∀ j ∈ s.map Json.text, j.Readable := by
    intro j hj
    obtain ⟨s, -, rfl⟩ := Option.map_eq_some_iff.mp hj
    exact Json.readable_text s
  refine Json.readable_record fun field hfield => ?_
  simp only [List.mem_append, List.mem_cons, List.not_mem_nil, or_false] at hfield
  rcases hfield with ((rfl | rfl) | hname) | hurl
  · exact Json.readable_text _
  · exact Json.readable_text _
  · exact Json.readable_optionalField (htext r.name) field hname
  · exact Json.readable_optionalField (htext r.url) field hurl

theorem toFields?_toJson (r : Reference) :
    r.toJson.toFields? ["kind", "id", "name", "url"] = some r.fields := by
  refine Json.toFields?_record ?_ (by decide)
  rw [List.map_append, List.map_append]
  exact ((List.Sublist.refl ["kind", "id"]).append (Json.keys_optionalField_sublist ..)).append
    (Json.keys_optionalField_sublist ..)

theorem lookup_name (r : Reference) : r.fields.lookup "name" = r.name.map .text := by
  simp [fields, List.lookup_append, List.lookup_cons]

theorem lookup_url (r : Reference) : r.fields.lookup "url" = r.url.map .text := by
  simp [fields, List.lookup_append, List.lookup_cons]

theorem ofJson?_toJson (p : Place) (r : Reference) : ofJson? p r.toJson = some r := by
  have hkind : Json.required? (fun j => (j.toName? p).bind ReferenceKind.ofName?) "kind" r.fields =
      some r.kind := r.kind.ofName?_name
  have hid : Json.required? Json.toText? "id" r.fields = some r.id := rfl
  have hname : Json.optional? Json.toText? "name" r.fields = some r.name :=
    Json.optional?_of_lookup r.lookup_name (fun _ => rfl) nofun
  have hurl : Json.optional? Json.toText? "url" r.fields = some r.url :=
    Json.optional?_of_lookup r.lookup_url (fun _ => rfl) nofun
  unfold ofJson?
  simp only [r.toFields?_toJson, hkind, hid, hname, hurl, Option.bind_eq_bind, Option.bind_some]
  rfl

end Reference

/-! ## Values -/

namespace Value

theorem readable_content (v : Value) : ∀ j ∈ v.content, j.Readable := by
  intro j hj
  cases v with
  | null => cases hj
  | text s =>
      cases hj
      exact Json.readable_text s
  | number x =>
      cases hj
      exact Json.readable_ofFloat x
  | boolean b =>
      cases hj
      exact Json.readable_boolean b
  | date t =>
      cases hj
      exact Json.readable_text _
  | options items =>
      cases hj
      exact Json.readable_array_map fun s _ => Json.readable_text s
  | references refs =>
      cases hj
      exact Json.readable_array_map fun r _ => r.readable_toJson

theorem readable_toJson (v : Value) : v.toJson.Readable :=
  Json.readable_tagged v.readable_content

/-- The number of the value, if it is one, reads back from its numeral. -/
def NumberReadsBack : Value → Prop
  | number x => Json.Numeral.ReadsBack x
  | _ => True

instance : DecidablePred NumberReadsBack
  | number x => inferInstanceAs (Decidable (Json.Numeral.ReadsBack x))
  | null | text _ | boolean _ | date _ | options _ | references _ => inferInstanceAs (Decidable True)

theorem toTagged?_toJson (p : Place) (v : Value) : v.toJson.toTagged? p =
    some { tag := v.kindName, content := v.content.map (·, p.inside 1) } :=
  Json.toTagged?_record p v.kindName v.content

theorem storedInstant?_fullText (t : Calendar.Instant) :
    storedInstant? (.text (String.ofList t.fullText)) = some t := by
  unfold storedInstant? Json.text Json.toText?
  rw [Option.bind_some, String.toList_ofList, t.ofStored?_fullText]

theorem ofJson?_number (p : Place) (x : Float) :
    ofJson? p (number x).toJson = (Json.ofFloat x).toFloat?.map number := by
  unfold ofJson?
  rw [toTagged?_toJson, Option.bind_eq_bind, Option.bind_some]
  simp only [kindName]
  rfl

theorem ofJson?_toJson (p : Place) {v : Value} (h : v.NumberReadsBack) :
    ofJson? p v.toJson = some v := by
  unfold ofJson?
  rw [toTagged?_toJson, Option.bind_eq_bind, Option.bind_some]
  cases v with
  | null => rfl
  | text s => rfl
  | number x =>
      simp only [kindName]
      exact congrArg (Option.map number) (Json.toFloat?_ofFloat h)
  | boolean b =>
      simp only [kindName]
      rfl
  | date t =>
      simp only [kindName, content, Option.map_some, Json.Tagged.content?, Option.bind_some,
        storedInstant?_fullText]
  | options items =>
      simp only [kindName]
      exact congrArg (Option.map options) (Json.toList?_array fun _ _ => rfl)
  | references refs =>
      simp only [kindName]
      exact congrArg (Option.map references) (Json.toList?_array fun r _ => r.ofJson?_toJson _)

/-- Different values have different stored forms. -/
theorem toJson_inj {v w : Value} (hv : v.NumberReadsBack) (hw : w.NumberReadsBack)
    (h : v.toJson = w.toJson) : v = w := by
  have hread := ofJson?_toJson {} hv
  rw [h, ofJson?_toJson {} hw] at hread
  exact (Option.some.inj hread).symm

end Value

end FormulaTable
