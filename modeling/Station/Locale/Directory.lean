import Station.Content
import Station.Locale

/-!
# Reading a locale directory

A locale directory is read file by file, in the order of the paths. Whatever a scan yields is read,
so a directory whose name looks like that of a file is an error.
-/

namespace Station.LocaleIndex

/-- Adds a file of a tree. -/
def addFile (tree : FileTree) (index : LocaleIndex) (path : Path) :
    Except ContentError LocaleIndex :=
  match tree.readText path with
  | .error error => .error (.file path error)
  | .ok text => .ok (index.addText text path)

/-- The index of every locale file below a directory; one that does not exist holds none. -/
def ofDirectory (tree : FileTree) (directory : Path) : Except ContentError LocaleIndex := do
  if tree.contains directory then
    let yielded ← scanContent tree directory "ftl"
    (Path.sort yielded).foldlM (addFile tree) {}
  else return {}

end Station.LocaleIndex
