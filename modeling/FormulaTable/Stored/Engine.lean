import FormulaTable.Formula.Engine
import FormulaTable.Json.Decoding

/-!
# Stored settings of engines, and answers of validation

The settings of an engine have defaults, so any of them may be left out.
-/

namespace FormulaTable.Formula

namespace EngineOptions

/-- The stored form of the settings of an engine. -/
def toJson (o : EngineOptions) : Json :=
  .record [("max_depth", .ofNat o.maxDepth), ("cache_enabled", .boolean o.remembers)]

/-- Reads the stored settings of an engine. -/
def ofJson? (j : Json) : Option EngineOptions := do
  let fields ← j.toFields? ["max_depth", "cache_enabled"]
  let maxDepth ← Json.defaulted? Json.toWord? ({} : EngineOptions).maxDepth "max_depth" fields
  let remembers ← Json.defaulted? Json.toBool? ({} : EngineOptions).remembers "cache_enabled" fields
  return { maxDepth, remembers }

end EngineOptions

/-- The fields of the answer to a check of a formula: whether it is valid, and otherwise what is
wrong, and where. -/
def Validation.toJson : Validation → Json
  | none => .record [("is_valid", .boolean true)]
  | some e =>
    .record [("is_valid", .boolean false), ("error", .text e.message),
      ("position", .ofNat e.position)]

end FormulaTable.Formula
