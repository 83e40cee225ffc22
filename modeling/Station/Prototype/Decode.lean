import Station.Prototype
import Station.Yaml.Value

/-!
# Reading prototypes

A document of a known kind is a mapping with texts for keys. Fields that its kind does not have are
passed over, and a field that is given twice, once under a tag, is refused. Outside `parent` and the
entries of `components` a tag on a value changes nothing; inside them it is refused, but for the
text that names the type of a component.

`Prototype.ofValue?` reads a document under a kind, and `Prototype.untyped` keeps its kind and id.
-/

namespace Station

open Yaml (Value)

namespace Decode

/-- Reads the fields of a record: the value of each field by its number. `field?` says which field a
key names, if any; a key that it refuses, or a field that is given twice, is refused. -/
def fields (field? : Value → Option (Option Nat)) :
    List (Value × Value) → Option (List (Nat × Value))
  | [] => some []
  | (key, value) :: rest => do
    let later ← fields field? rest
    match ← field? key with
    | none => return later
    | some number => if later.any (·.1 == number) then none else return (number, value) :: later

/-- The value of a field. -/
def field (number : Nat) (fields : List (Nat × Value)) : Option Value :=
  (fields.find? (·.1 == number)).map (·.2)

/-- Keys of documents are texts, with tags or without. -/
def documentKey (names : List String) (key : Value) : Option (Option Nat) :=
  key.string?.map names.idxOf?

/-- The entries of a document. Nothing is a document without entries. -/
def entries? (v : Value) : Option (List (Value × Value)) :=
  match v.untag with
  | .mapping entries => some entries
  | .atom .null => some []
  | _ => none

/-- The fields of a document. -/
def documentFields (names : List String) (v : Value) : Option (List (Nat × Value)) := do
  fields (documentKey names) (← entries? v)

/-- A field that is not given, or is nothing, is not set. -/
def optional {α : Type} (read : Value → Option α) : Option Value → Option (Option α)
  | none | some (.atom .null) => some none
  | some value => (read value).map some

/-- A list that is not given, or is nothing, is empty. Its own tags do not count. -/
def list {α : Type} (read : Value → Option α) : Option Value → Option (List α)
  | none => some []
  | some value =>
    match value.untag with
    | .atom .null => some []
    | .sequence items => items.mapM read
    | _ => none

/-- A text without a tag. -/
def plainText? : Value → Option String
  | .atom (.string text) => some text
  | _ => none

mutual

/-- Whether a value has no tag anywhere. -/
def tagFree : Value → Bool
  | .atom _ => true
  | .tagged .. => false
  | .sequence items => allTagFree items
  | .mapping entries => entriesTagFree entries

/-- Whether no value of a list has a tag. -/
def allTagFree : List Value → Bool
  | [] => true
  | value :: rest => tagFree value && allTagFree rest

/-- Whether no key and no value of a mapping has a tag. -/
def entriesTagFree : List (Value × Value) → Bool
  | [] => true
  | (key, value) :: rest => tagFree key && tagFree value && entriesTagFree rest

end

/-- Keys inside a component are texts, or numbers of fields; a number beyond the last field is
passed over. -/
def componentKey (names : List String) : Value → Option (Option Nat)
  | .atom (.string text) => some (names.idxOf? text)
  | .atom (.int n) => if 0 ≤ n then some (if n < names.length then some n.toNat else none) else none
  | _ => none

/-- A text under a key, which other keys may stand beside. -/
def soleText? (name : String) (entries : List (Value × Value)) : Option String := do
  let fields ← fields (componentKey [name]) entries
  plainText? (← field 0 fields)

/-- A sound: a mapping with a path, or else with a collection. -/
def sound? : Value → Option SoundSpecifier
  | .mapping entries =>
    match soleText? "path" entries with
    | some path => some (.path path)
    | none => (soleText? "collection" entries).map .collection
  | _ => none

/-- The fields of a felinid component, by number. -/
def felinidNames : List String := ["hairballPrototype", "hairballAction", "eatSound"]

/-- Reads a felinid component from its fields. -/
def felinid? (fields : List (Nat × Value)) : Option FelinidOverrides := do
  let hairballPrototype ← optional plainText? (field 0 fields)
  let hairballAction ← optional plainText? (field 1 fields)
  let eatSound ← optional sound? (field 2 fields)
  return { hairballPrototype, hairballAction, eatSound }

/-- Whether a key names the type of a component. -/
def isTypeKey : Value → Bool
  | .atom (.string text) => text == "type"
  | _ => false

/-- Reads an entry of `components`: a mapping with a type, or a list of the type and the fields in
order. A component of an unknown type may be any mapping with a type, or a list of the type alone.
-/
def component? : Value → Option ComponentEntry
  | .mapping entries => do
    let kind ← (← Value.lookup "type" entries).string?
    let rest := entries.filter fun entry => !isTypeKey entry.1
    if !entriesTagFree rest then none
    else if kind = "Felinid" then
      return .felinid (← felinid? (← fields (componentKey felinidNames) rest))
    else return .unknown
  | .sequence (head :: rest) => do
    let kind ← head.string?
    if !allTagFree rest then none
    else if kind = "Felinid" then
      if felinidNames.length < rest.length then none
      else return .felinid (← felinid? ((List.range rest.length).zip rest))
    else if rest.isEmpty then return .unknown
    else none
  | _ => none

/-- Reads `parent`: a text or a list of texts. -/
def parents? : Value → Option Parents
  | .atom (.string id) => some (.one id)
  | .sequence items => (items.mapM plainText?).map .many
  | _ => none

/-- Reads a job. -/
def job? (v : Value) : Option JobPrototype := do
  let fields ← documentFields ["id", "name"] v
  let id ← (← field 0 fields).string?
  let name ← optional Value.string? (field 1 fields)
  return { id, name }

/-- Reads a sound collection. -/
def soundCollection? (v : Value) : Option SoundCollectionPrototype := do
  let fields ← documentFields ["id", "files"] v
  let id ← (← field 0 fields).string?
  let files ← list Value.string? (field 1 fields)
  return { id, files }

/-- Reads a mind filter. -/
def mindFilter? (v : Value) : Option MindFilterPrototype := do
  let fields ← documentFields ["id", "blacklist"] v
  let id ← (← field 0 fields).string?
  let blacklist ← list Value.string? (field 1 fields)
  return { id, blacklist }

/-- Reads an entity. -/
def entity? (v : Value) : Option EntityPrototype := do
  let fields ← documentFields ["id", "name", "parent", "components"] v
  let id ← (← field 0 fields).string?
  let name ← optional Value.string? (field 1 fields)
  let parents ← optional parents? (field 2 fields)
  let components ← list component? (field 3 fields)
  return { id, name, parents, components }

end Decode

namespace Prototype

/-- A document of which only its kind and its id are kept. -/
def untyped (kind : String) (v : Value) : Prototype :=
  .other kind ((v.get? "id").bind Value.string?)

/-- Reads a document under a kind. A kind that this library does not know takes any value. -/
def ofValue? (kind : String) (v : Value) : Option Prototype :=
  match kind with
  | "job" => (Decode.job? v).map .job
  | "soundCollection" => (Decode.soundCollection? v).map .soundCollection
  | "entity" => (Decode.entity? v).map .entity
  | "mindFilter" => (Decode.mindFilter? v).map .mindFilter
  | kind => some (untyped kind v)

end Prototype

end Station
