import Station.Catalogue

/-!
# Reading a content directory

A content directory is read file by file, in the order of the paths. A file that is not read is
recorded and does not keep the others from being read; a directory whose name looks like that of a
file is passed over.
-/

namespace Station.Catalogue

/-- Adds a file of a tree, or records why it is not read. -/
def addFile (tree : FileTree) (c : Catalogue) (path : Path) : Catalogue :=
  match tree.readText path with
  | .error error => c.record (.file path error)
  | .ok text =>
    match c.addText text path with
    | .ok c => c
    | .error error => c.record error

/-- Adds the regular files among the paths that scans yielded, in order. -/
def addYielded (tree : FileTree) (c : Catalogue) (yielded : List Path) : Catalogue :=
  (Path.sort (yielded.filter tree.isFile)).foldl (addFile tree) c

/-- Adds every file below a directory that holds YAML by its name. A directory that does not exist
is recorded. Only a name that makes no pattern is an error. -/
def addDirectory (tree : FileTree) (c : Catalogue) (directory : Path) :
    Except ContentError Catalogue := do
  if tree.contains directory then
    let short ← scanContent tree directory "yml"
    let long ← scanContent tree directory "yaml"
    return c.addYielded tree (short ++ long)
  else return c.record (.missingDirectory directory)

end Station.Catalogue
