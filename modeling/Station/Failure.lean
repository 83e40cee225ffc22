import Station.Carry
import Station.Content
import Station.JoinQueue

/-!
# Failures of the station

What may go wrong in anything that a running station, or a tool for its content, is asked to do.
-/

namespace Station

/-- Why a request failed. -/
inductive Failure where
  /-- The name of a configuration file does not say in which format it is. -/
  | unsupportedConfigFormat (path extension : String)
  /-- The configuration cannot be used. -/
  | config (message : String)
  /-- The documents of the configured directory cannot be read. -/
  | prototypes (directory : Path) (error : ContentError)
  /-- A store failed. -/
  | repository (error : StoreError)
  /-- The join queue was started against its order. -/
  | joinQueue (error : JoinQueueError)
  /-- A carry did not start. -/
  | carry (error : CarryError)
  /-- A file is not read. -/
  | file (error : FileError)
  /-- A configuration file holds no proper JSON. -/
  | json
  /-- A configuration file holds no proper YAML. -/
  | yaml (problem : Yaml.Problem)
  /-- No document describes a mind filter. -/
  | unknownMindFilter (id : PrototypeId)
  /-- Something else. -/
  | other (message : String)
  deriving DecidableEq, Repr, Inhabited

namespace Failure

/-- The text of a failure. -/
def message : Failure → String
  | .unsupportedConfigFormat path extension =>
    "Unsupported config format '" ++ extension ++ "' for " ++ path ++
      ". Expected one of: yml, yaml, json"
  | .config message => "Configuration error: " ++ message
  | .prototypes directory error =>
    "Configuration error: loading prototypes from " ++ directory.text ++ ": " ++ error.message
  | .repository error => "Repository error: " ++ error.message
  | .joinQueue error => "Join queue error: " ++ error.message
  | .carry error => "Carry error: " ++ error.message
  | .file error => "IO error: " ++ error.message
  | .json => "JSON error"
  | .yaml _ => "YAML error"
  | .unknownMindFilter id => "unknown mind filter '" ++ id ++ "'"
  | .other message => message

/-- The texts of what lies behind a failure, outermost first. -/
def causes : Failure → List String
  | .file error => [error.message]
  | _ => []

end Failure

end Station
