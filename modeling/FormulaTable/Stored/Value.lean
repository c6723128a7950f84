import FormulaTable.Calendar.Reading
import FormulaTable.Calendar.Text
import FormulaTable.Json.Decoding
import FormulaTable.Value.Basic

/-!
# Stored values

A value is stored as a JSON object of its type and its content; null has no content. A reference is
stored with its kind and id, and with its name and address if it has them.
-/

namespace FormulaTable

open Calendar (Instant)
open Json (Place)

/-! ## References -/

/-- The name of a kind of reference. -/
def ReferenceKind.name : ReferenceKind → String
  | file => "file"
  | relation => "relation"

/-- The kind of reference with this name. -/
def ReferenceKind.ofName? (s : String) : Option ReferenceKind :=
  [file, relation].find? (·.name = s)

namespace Reference

/-- The stored form of a reference. -/
def toJson (r : Reference) : Json :=
  .record ([("kind", .text r.kind.name), ("id", .text r.id)] ++
    Json.optionalField "name" (r.name.map .text) ++ Json.optionalField "url" (r.url.map .text))

/-- Reads a stored reference. -/
def ofJson? (p : Place) (j : Json) : Option Reference := do
  let fields ← j.toFields? ["kind", "id", "name", "url"]
  let kind ← Json.required? (fun j => (j.toName? p).bind ReferenceKind.ofName?) "kind" fields
  let id ← Json.required? Json.toText? "id" fields
  let name ← Json.optional? Json.toText? "name" fields
  let url ← Json.optional? Json.toText? "url" fields
  return { kind, id, name, url }

end Reference

/-! ## Values -/

namespace Value

/-- The stored content of a value. -/
def content : Value → Option Json
  | null => none
  | text s => some (.text s)
  | number x => some (.ofFloat x)
  | boolean b => some (.boolean b)
  | date t => some (.text (String.ofList t.fullText))
  | options items => some (.array (items.map .text))
  | references refs => some (.array (refs.map Reference.toJson))

/-- The stored form of a value. -/
def toJson (v : Value) : Json :=
  .record (("type", .text v.kindName) :: Json.optionalField "value" v.content)

/-- Reads a stored date. -/
def storedInstant? (j : Json) : Option Instant := j.toText?.bind fun s => Instant.ofStored? s.toList

/-- Reads a stored value. -/
def ofJson? (p : Place) (j : Json) : Option Value := do
  let t ← j.toTagged? p
  match t.tag with
  | "null" => if t.isBare then some null else none
  | "text" => (t.content? fun _ => Json.toText?).map text
  | "number" => (t.content? fun _ => Json.toFloat?).map number
  | "boolean" => (t.content? fun _ => Json.toBool?).map boolean
  | "date" => (t.content? fun _ => storedInstant?).map date
  | "multi_select" => (t.content? fun _ => Json.toList? Json.toText?).map options
  | "references" =>
    (t.content? fun p => Json.toList? (Reference.ofJson? (p.inside 1))).map references
  | _ => none

end Value

end FormulaTable
