import Station.Catalogue.Directory
import Station.Locale.Directory
import Station.Report

/-!
# Reporting on directories
-/

namespace Station

/-- A directory that cannot be scanned. -/
structure ScanFailure where
  /-- The directory. -/
  directory : Path
  /-- Why not. -/
  error : ContentError
  deriving DecidableEq, Repr, Inhabited

namespace ScanFailure

/-- The text of a scan failure. -/
def message (f : ScanFailure) : String := "scanning " ++ f.directory.text

/-- The texts of what lies behind a scan failure, outermost first. -/
def causes (f : ScanFailure) : List String := f.error.message :: f.error.causes

end ScanFailure

/-- The report on a directory of documents and a directory of message keys. -/
def Report.ofDirectories (tree : FileTree) (prototypes locale : Path) :
    Except ScanFailure Report :=
  match ({} : Catalogue).addDirectory tree prototypes with
  | .error error => .error ⟨prototypes, error⟩
  | .ok c =>
    match LocaleIndex.ofDirectory tree locale with
    | .error error => .error ⟨locale, error⟩
    | .ok index => .ok (.of c index)

end Station
