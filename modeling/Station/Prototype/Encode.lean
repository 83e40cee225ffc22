import Station.Prototype
import Station.Yaml.Value

/-!
# Writing prototypes

A prototype as a value: a mapping that starts with the type of the document, in which a field that
is not set is nothing. Reading the value back under its kind gives the prototype again.
-/

namespace Station

open Yaml (Value)

namespace Encode

/-- Something that may be missing. -/
def optional {α : Type} (write : α → Value) : Option α → Value
  | none => .null
  | some a => write a

/-- A list of texts. -/
def texts (items : List String) : Value := .sequence (items.map .string)

/-- A mapping whose keys are texts. -/
def record (entries : List (String × Value)) : Value :=
  .mapping (entries.map fun (name, value) => (.string name, value))

/-- A sound. -/
def sound : SoundSpecifier → Value
  | .path path => record [("path", .string path)]
  | .collection id => record [("collection", .string id)]

/-- An entry of `components`. -/
def component : ComponentEntry → Value
  | .felinid overrides =>
    record
      [("type", .string "Felinid"),
        ("hairballPrototype", optional .string overrides.hairballPrototype),
        ("hairballAction", optional .string overrides.hairballAction),
        ("eatSound", optional sound overrides.eatSound)]
  | .unknown => record [("type", .string "Unknown")]

/-- The parents of an entity. -/
def parents : Parents → Value
  | .one id => .string id
  | .many ids => texts ids

end Encode

/-- A prototype as a value. -/
def Prototype.toValue : Prototype → Value
  | .job p =>
    Encode.record
      [("type", .string "job"), ("id", .string p.id), ("name", Encode.optional .string p.name)]
  | .soundCollection p =>
    Encode.record
      [("type", .string "soundCollection"), ("id", .string p.id), ("files", Encode.texts p.files)]
  | .mindFilter p =>
    Encode.record
      [("type", .string "mindFilter"), ("id", .string p.id),
        ("blacklist", Encode.texts p.blacklist)]
  | .entity p =>
    Encode.record
      [("type", .string "entity"), ("id", .string p.id),
        ("name", Encode.optional .string p.name),
        ("parent", Encode.optional Encode.parents p.parents),
        ("components", .sequence (p.components.map Encode.component))]
  | .other kind id =>
    Encode.record
      [("type", .string "other"), ("kind", .string kind), ("id", Encode.optional .string id)]

end Station
