import FormulaTable.Json.Token

/-!
# Reading JSON values

The tokens of a text are taken one by one. The arrays and objects that are open stand in a stack, and
each token either completes a value, opens or closes one, or does not fit.
-/

namespace FormulaTable.Json

/-! ## The state of reading -/

/-- An array or object that is still open: what has been read of it, last first. In an object the
value of a key is being read. -/
inductive Frame where
  | items (read : List Json)
  | members (read : List (Option String × Json)) (key : Option String)

/-- What the tokens read so far call for. -/
inductive Reading where
  /-- A value has to come. -/
  | atValue (frames : List Frame)
  /-- The first item of an array or its end has to come. -/
  | atFirstItem (frames : List Frame)
  /-- The first key of an object or its end has to come. -/
  | atFirstKey (frames : List Frame)
  /-- Another key has to come. -/
  | atKey (frames : List Frame) (read : List (Option String × Json))
  /-- A colon has to come. -/
  | atColon (frames : List Frame) (read : List (Option String × Json)) (key : Option String)
  /-- A value is complete. -/
  | complete (frames : List Frame) (value : Json)

namespace Reading

/-- Goes on with the first token of a value. -/
def begin (frames : List Frame) : Token → Option Reading
  | .null => some (.complete frames .null)
  | .boolean b => some (.complete frames (.boolean b))
  | .number n => some (.complete frames (.number n))
  | .string text => some (.complete frames (.string text))
  | .mark .openArray => some (.atFirstItem frames)
  | .mark .openObject => some (.atFirstKey frames)
  | .mark _ => none

/-- Goes on with the token after a value. -/
def proceed (value : Json) : List Frame → Token → Option Reading
  | .items read :: frames, .mark .comma => some (.atValue (.items (value :: read) :: frames))
  | .items read :: frames, .mark .closeArray =>
    some (.complete frames (.array (value :: read).reverse))
  | .members read key :: frames, .mark .comma => some (.atKey frames ((key, value) :: read))
  | .members read key :: frames, .mark .closeObject =>
    some (.complete frames (.object ((key, value) :: read).reverse))
  | _, _ => none

/-- Goes on with a token. -/
def next : Reading → Token → Option Reading
  | .atValue frames, t => begin frames t
  | .atFirstItem frames, .mark .closeArray => some (.complete frames (.array []))
  | .atFirstItem frames, t => begin (.items [] :: frames) t
  | .atFirstKey frames, .mark .closeObject => some (.complete frames (.object []))
  | .atFirstKey frames, .string key => some (.atColon frames [] key)
  | .atKey frames read, .string key => some (.atColon frames read key)
  | .atColon frames read key, .mark .colon => some (.atValue (.members read key :: frames))
  | .complete frames value, t => proceed value frames t
  | _, _ => none

/-- The value that has been read, if nothing is open. -/
def result? : Reading → Option Json
  | .complete [] value => some value
  | _ => none

end Reading

/-- The tree that tokens spell. -/
def ofTokens? (ts : List Token) : Option Json := (ts.foldlM Reading.next (.atValue [])).bind (·.result?)

/-- The tree of a JSON text. -/
def ofText? (s : List Char) : Option Json := (tokens? s).bind ofTokens?

end FormulaTable.Json
