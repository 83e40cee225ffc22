import Station.Glob.Scan
import Station.Yaml.Problem

/-!
# Content directories

Content lies in files below a directory and is found by the extension of the file names. The name of
the directory is itself part of the pattern that is scanned for, so wildcards in it count as such.
-/

namespace Station

/-- Why content is not read. -/
inductive ContentError where
  /-- A file is not read at all. -/
  | file (path : Path) (error : FileError)
  /-- A file holds no YAML. -/
  | yaml (path : Path) (problem : Yaml.Problem)
  /-- A document does not say of which type it is. -/
  | missingType (path : Path) (index : Nat)
  /-- A file holds YAML, but no list of documents. -/
  | invalidShape (path : Path)
  /-- There is no such directory. -/
  | missingDirectory (path : Path)
  /-- The name of the directory makes no pattern. -/
  | pattern (error : Glob.PatternError)
  deriving DecidableEq, Repr, Inhabited

namespace ContentError

/-- The text of a content error. -/
def message : ContentError → String
  | .file path error => "IO error reading " ++ path.text ++ ": " ++ error.message
  | .yaml path _ => "YAML error in " ++ path.text
  | .missingType path index =>
    "Document #" ++ toString index ++ " in " ++ path.text ++ " has no 'type' field"
  | .invalidShape path =>
    path.text ++ " must contain a list of prototypes or a 'prototypes' list"
  | .missingDirectory path => "Directory " ++ path.text ++ " does not exist"
  | .pattern error => "Invalid glob pattern: " ++ error.message

/-- The texts of what lies behind a content error, outermost first. -/
def causes : ContentError → List String
  | .file _ error => [error.message]
  | .pattern error => [error.message]
  | .yaml .. | .missingType .. | .invalidShape .. | .missingDirectory .. => []

end ContentError

/-- The pattern of the files with an extension, anywhere below a directory. -/
def contentPattern (directory : Path) (extension : String) : Path :=
  (directory.join ⟨"**"⟩).join ⟨"*." ++ extension⟩

/-- What a scan for the files with an extension yields. -/
def scanContent (tree : FileTree) (directory : Path) (extension : String) :
    Except ContentError (List Path) :=
  match Glob.scan tree (contentPattern directory extension) with
  | .ok paths => .ok paths
  | .error error => .error (.pattern error)

end Station
