import Station.Config.Json
import Station.Config.Yaml
import Station.Failure

/-!
# Configuration files

The extension of a configuration file says in which format it is, in capitals or not. The file is
read first, so a file that is not there is a matter of the file, whatever its name.
-/

namespace Station

/-- The extension of a path, in small letters; a path may have none. -/
def Path.format (p : Path) : String := (p.extension?.getD "").map Char.toLower

namespace ServerConfig

/-- Reads a configuration that was found under a path. -/
def ofText (path : Path) (source : String) : Except Failure ServerConfig :=
  match path.format with
  | "yml" | "yaml" =>
    match Config.ofYaml source with
    | .ok config => .ok config
    | .error problem => .error (.yaml problem)
  | "json" =>
    match Config.ofJson? source with
    | some config => .ok config
    | none => .error .json
  | extension => .error (.unsupportedConfigFormat path.text extension)

/-- Reads a configuration file of a tree. -/
def ofFile (tree : FileTree) (path : Path) : Except Failure ServerConfig :=
  match tree.readText path with
  | .error error => .error (.file error)
  | .ok source => ofText path source

/-- Reads a configuration file if one is given, or else takes the defaults. -/
def ofFileOrDefault (tree : FileTree) : Option Path → Except Failure ServerConfig
  | some path => ofFile tree path
  | none => .ok {}

/-- The configuration for a run: relative directories of a file are relative to its directory. -/
def forRun (tree : FileTree) (path : Option Path) : Except Failure ServerConfig :=
  (ofFileOrDefault tree path).map fun config =>
    match path.bind Path.parent? with
    | some base => config.rebase base
    | none => config

end ServerConfig

end Station
