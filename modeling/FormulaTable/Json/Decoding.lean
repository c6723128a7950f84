import FormulaTable.Json.Basic

/-!
# Decoding JSON values

What a JSON value means is decided part by part. A record is an object, whose unknown members are
ignored, or an array of its fields in order. A tagged value is a tag and the content that belongs to
it.

Members are taken in the order of the text, so content that stands before its tag is held until the
tag is known. What is held has to make sense by itself: its strings have texts, its numbers are
doubles, and it is not nested too deeply.
-/

namespace FormulaTable.Json

/-! ## Where a value stands -/

/-- The greatest number of arrays and objects inside one another in a value that is held. -/
def maxNesting : Nat := 127

/-- Where a value stands: how many arrays and objects there are around it, and whether it is held. -/
structure Place where
  depth : Nat := 0
  held : Bool := false

/-- A place at some levels further in. -/
def Place.inside (p : Place) (levels : Nat) : Place := { p with depth := p.depth + levels }

mutual

/-- A value with some arrays and objects around it can be held. -/
def holdable (depth : Nat) : Json → Bool
  | .null | .boolean _ => true
  | .number n => n.toFloat?.isSome
  | .string text => text.isSome
  | .array items => depth < maxNesting && holdableItems (depth + 1) items
  | .object members => depth < maxNesting && holdableMembers (depth + 1) members

/-- All items of an array can be held. -/
def holdableItems (depth : Nat) : List Json → Bool
  | [] => true
  | item :: items => item.holdable depth && holdableItems depth items

/-- All members of an object can be held. -/
def holdableMembers (depth : Nat) : List (Option String × Json) → Bool
  | [] => true
  | (key, value) :: members => key.isSome && value.holdable depth && holdableMembers depth members

end

/-- The place of a value that is held. -/
def Place.hold? (p : Place) (j : Json) : Option Place :=
  if j.holdable p.depth then some { p with held := true } else none

/-! ## Single values -/

/-- A string with a text. -/
def toText? : Json → Option String
  | .string text => text
  | _ => none

/-- A number that is a double. -/
def toFloat? : Json → Option Float
  | .number n => n.toFloat?
  | _ => none

/-- A natural number of 64 bits. -/
def toWord? : Json → Option Nat
  | .number n => n.toWord?
  | _ => none

/-- A truth value. -/
def toBool? : Json → Option Bool
  | .boolean b => some b
  | _ => none

/-- An array of values that can all be decoded. -/
def toList? {α : Type} (decode : Json → Option α) : Json → Option (List α)
  | .array items => items.mapM decode
  | _ => none

/-- A value, or null for none. -/
def toOption? {α : Type} (decode : Json → Option α) : Json → Option (Option α)
  | .null => some none
  | j => (decode j).map some

/-- The content of a name that has none: null, or an empty object in a value that is held. -/
def isNothing (p : Place) : Json → Bool
  | .null => true
  | .object [] => p.held
  | _ => false

/-- A name: a string, or an object whose one member has the name and no content. -/
def toName? (p : Place) : Json → Option String
  | .string text => text
  | .object [(key, content)] => if content.isNothing p then key else none
  | _ => none

/-! ## Records -/

/-- The members of an object by the texts of their keys. -/
def namedMembers? (members : List (Option String × Json)) : Option (List (String × Json)) :=
  members.mapM fun (key, value) => key.map (·, value)

/-- The members with one of the names. -/
def known (names : List String) (members : List (String × Json)) : List (String × Json) :=
  members.filter fun (key, _) => names.contains key

/-- The fields of a record, by their names. An object has each of them at most once; an array has
them in the order of the names, and may end early. -/
def toFields? (names : List String) : Json → Option (List (String × Json))
  | .object members => do
    let members ← namedMembers? members
    let fields := known names members
    if (fields.map Prod.fst).Nodup then some fields else none
  | .array items => if items.length ≤ names.length then some (names.zip items) else none
  | _ => none

/-- A field that has to be there. -/
def required? {α : Type} (decode : Json → Option α) (name : String) (fields : List (String × Json)) :
    Option α :=
  (fields.lookup name).bind decode

/-- A field that has a default. -/
def defaulted? {α : Type} (decode : Json → Option α) (default : α) (name : String)
    (fields : List (String × Json)) : Option α :=
  match fields.lookup name with
  | some j => decode j
  | none => some default

/-- A field that may be null or not be there. -/
def optional? {α : Type} (decode : Json → Option α) (name : String)
    (fields : List (String × Json)) : Option (Option α) :=
  defaulted? (toOption? decode) none name fields

/-! ## Tagged values -/

/-- A tag and the content that belongs to it, each with its place. -/
structure Tagged where
  tag : String
  content : Option (Json × Place)

/-- A tagged value: an object with members `type` and `value`, in any order, or an array of the two.
Content before its tag is held. -/
def toTagged? (p : Place) : Json → Option Tagged
  | .array [tag, content] => do
    return { tag := ← tag.toName? p, content := some (content, p.inside 1) }
  | .object members => do
    let members ← namedMembers? members
    match known ["type", "value"] members with
    | [("type", tag)] => return { tag := ← tag.toName? p, content := none }
    | [("type", tag), ("value", content)] =>
      return { tag := ← tag.toName? p, content := some (content, p.inside 1) }
    | [("value", content), ("type", tag)] =>
      let place ← (p.inside 1).hold? content
      return { tag := ← tag.toName? p, content := some (content, place) }
    | _ => none
  | _ => none

/-- The content of a tag. -/
def Tagged.content? {α : Type} (t : Tagged) (decode : Place → Json → Option α) : Option α :=
  t.content.bind fun (j, p) => decode p j

/-- The content is null or there is none. -/
def Tagged.isBare (t : Tagged) : Bool :=
  match t.content with
  | none | some (.null, _) => true
  | _ => false

/-- A record with its tag among its members, under the key `kind`, or in front of its fields. The
other fields are held, whichever side of the tag they are on. -/
def toKindAndFields? (p : Place) : Json → Option (String × Json)
  | .array (tag :: items) => do
    let tag ← tag.toText?
    if holdableItems (p.depth + 1) items then some (tag, .array items) else none
  | .object members => do
    let named ← namedMembers? members
    match known ["kind"] named with
    | [(_, tag)] =>
      let tag ← tag.toText?
      let others := members.filter fun (key, _) => key != some "kind"
      if holdableMembers (p.depth + 1) others then some (tag, .object others) else none
    | _ => none
  | _ => none

/-! ## Maps -/

/-- A map from texts. The last of several members with one key counts. -/
def toMap? {α : Type} (decode : Json → Option α) : Json → Option (List (String × α))
  | .object members => do
    let members ← namedMembers? members
    members.mapM fun (key, value) => (decode value).map (key, ·)
  | _ => none

end FormulaTable.Json
