import Station.Config
import Station.Yaml.Value

/-!
# Configurations in YAML

A configuration in YAML is a mapping whose keys are read as they are written. So are texts; any
scalar is one. Truth values and numbers have to be plain. Tags do not count, settings that are not
known are passed over with whatever they hold, and a text without a document is a mapping without
entries.
-/

namespace Station.Config

open Yaml

/-- The text of a scalar, as it is written. -/
def text (d : Document) (node : Node) : ValueM String := do
  match ← d.resolve node with
  | .scalar _ text _ => return text
  | _ => throw .wrongShape

/-- The text of a scalar that may stand for a value of a core type: a plain one, or a literal block
under the tag of the type. -/
def typedText (d : Document) (type : String) (node : Node) : ValueM String := do
  match ← d.resolve node with
  | .scalar tag text style =>
    if style == .plain || (style == .literal && tag == some (coreTag type)) then return text
    else throw .wrongShape
  | _ => throw .wrongShape

/-- A truth value. -/
def flag (d : Document) (node : Node) : ValueM Bool := do
  match bool? (← typedText d "bool" node) with
  | some value => return value
  | none => throw .badScalar

/-- A natural number of 64 bits. -/
def count (d : Document) (node : Node) : ValueM UInt64 := do
  match unsigned? (← typedText d "int" node) with
  | some value => return value
  | none => throw .badScalar

/-- The entries of a mapping by the texts of their keys. An empty plain scalar is a mapping without
entries. -/
def entries (d : Document) (node : Node) : ValueM (List (String × Node)) := do
  match ← d.resolve node with
  | .mapping _ entries => entries.mapM fun (key, value) => return (← text d key, value)
  | .scalar _ text style => if text.isEmpty && style == .plain then return [] else throw .wrongShape
  | _ => throw .wrongShape

/-- Reads a setting, which has a default. -/
def read {α : Type} (name : String) (default : α) (value : Node → ValueM α)
    (entries : List (String × Node)) : ValueM α :=
  match setting? name entries with
  | none => throw .duplicateKey
  | some none => return default
  | some (some node) => value node

/-- The settings of the join queue. -/
def joinQueue (d : Document) (node : Node) : ValueM JoinQueueConfig := do
  let entries ← entries d node
  let defaults : JoinQueueConfig := {}
  return {
    enabled := ← read "enabled" defaults.enabled (flag d) entries
    statusIntervalSecs :=
      ← read "statusIntervalSecs" defaults.statusIntervalSecs (count d) entries }

/-- A directory. -/
def directory (d : Document) (node : Node) : ValueM Path := return ⟨← text d node⟩

/-- The settings of a server. -/
def server (d : Document) (node : Node) : ValueM ServerConfig := do
  let entries ← entries d node
  let defaults : ServerConfig := {}
  return {
    joinQueue := ← read "joinQueue" defaults.joinQueue (joinQueue d) entries
    prototypesDir := ← read "prototypesDir" defaults.prototypesDir (directory d) entries
    localeDir := ← read "localeDir" defaults.localeDir (directory d) entries
    logFilter := ← read "logFilter" defaults.logFilter (text d) entries }

/-- Reads a configuration in YAML. -/
def ofYaml (source : String) : Except Problem ServerConfig := do
  let d ← Document.ofText source
  match d.root with
  | none => return {}
  | some root => (server d root).run' (100 * d.size)

end Station.Config
