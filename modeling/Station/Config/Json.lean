import Station.Config
import Station.Json

/-!
# Configurations in JSON

A configuration in JSON is an object, or a list of the settings in their order, which may end early.
Settings that are not known are passed over with whatever they hold. Every value has to be of the
type of its setting, and nothing is not a value.
-/

namespace Station.Config

/-- The values of a record by their names: of an object whose keys have texts, or of a list that is
no longer than the names. -/
def fields? (names : List String) : Json → Option (List (String × Json))
  | .object entries => entries.mapM fun (key, value) => key.map fun name => (name, value)
  | .array items => if items.length ≤ names.length then some (names.zip items) else none
  | _ => none

/-- Reads a field, which has a default. -/
def field? {α : Type} (name : String) (default : α) (value? : Json → Option α)
    (fields : List (String × Json)) : Option α :=
  match setting? name fields with
  | none => none
  | some none => some default
  | some (some value) => value? value

/-- A natural number of 64 bits. -/
def count? (j : Json) : Option UInt64 :=
  j.nat?.bind fun n => if n < UInt64.size then some (UInt64.ofNat n) else none

/-- The settings of the join queue. -/
def joinQueue? (j : Json) : Option JoinQueueConfig := do
  let fields ← fields? ["enabled", "statusIntervalSecs"] j
  let defaults : JoinQueueConfig := {}
  return {
    enabled := ← field? "enabled" defaults.enabled Json.bool? fields
    statusIntervalSecs := ← field? "statusIntervalSecs" defaults.statusIntervalSecs count? fields }

/-- A directory. -/
def directory? (j : Json) : Option Path := j.text?.map Path.mk

/-- The settings of a server. -/
def server? (j : Json) : Option ServerConfig := do
  let fields ← fields? ["joinQueue", "prototypesDir", "localeDir", "logFilter"] j
  let defaults : ServerConfig := {}
  return {
    joinQueue := ← field? "joinQueue" defaults.joinQueue joinQueue? fields
    prototypesDir := ← field? "prototypesDir" defaults.prototypesDir directory? fields
    localeDir := ← field? "localeDir" defaults.localeDir directory? fields
    logFilter := ← field? "logFilter" defaults.logFilter Json.text? fields }

/-- Reads a configuration in JSON. -/
def ofJson? (source : String) : Option ServerConfig := do
  let json ← Json.parse? source
  server? json

end Station.Config
