import Station.Path

/-!
# File trees

A file tree is a value: the files and directories below a root, and the working directory in which
relative paths start. Everything this library does with files is a function of such a value.

A file that cannot be read is in the tree like any other, so that scans find it, but has no text: to
read it fails with what the system says (`FileError.refused`).
-/

namespace Station

/-- What the system says when it refuses something. -/
structure SystemError where
  /-- The number of the error. -/
  code : Nat
  /-- The text that goes with the number. -/
  text : String
  deriving DecidableEq, Repr, Inhabited

/-- A file with its bytes, a file that cannot be read, or a directory with its entries. -/
inductive FileNode where
  /-- A regular file. -/
  | file (bytes : ByteArray)
  /-- A regular file that the system does not let be read. -/
  | unreadable (error : SystemError)
  /-- A directory, one entry per name. -/
  | directory (entries : List (String × FileNode))
  deriving Inhabited

/-- Why a path could not be followed or read. -/
inductive FileError where
  /-- Nothing is there. -/
  | notFound
  /-- The path leads through a file. -/
  | notDirectory
  /-- A directory has no text. -/
  | isDirectory
  /-- The bytes of the file are no text. -/
  | notText
  /-- The system does not let the file be read. -/
  | refused (error : SystemError)
  deriving DecidableEq, Repr, Inhabited

/-- The text of a file error. -/
def FileError.message : FileError → String
  | .notFound => "No such file or directory (os error 2)"
  | .notDirectory => "Not a directory (os error 20)"
  | .isDirectory => "Is a directory (os error 21)"
  | .notText => "stream did not contain valid UTF-8"
  | .refused error => error.text ++ " (os error " ++ toString error.code ++ ")"

namespace FileNode

/-- The entry of a directory under a name. -/
def entry? (node : FileNode) (name : String) : Option FileNode :=
  match node with
  | .file _ | .unreadable _ => none
  | .directory entries => (entries.find? (·.1 == name)).map (·.2)

/-- What lies below a directory along names. -/
def descend? (node : FileNode) : List String → Option FileNode
  | [] => some node
  | name :: rest => (node.entry? name).bind (descend? · rest)

/-- Whether a node is a directory. -/
def isDirectory : FileNode → Bool
  | .file _ | .unreadable _ => false
  | .directory _ => true

/-- The entries of a directory; a file has none. -/
def entries : FileNode → List (String × FileNode)
  | .file _ | .unreadable _ => []
  | .directory entries => entries

/-- Puts an entry into a directory, in the place of an older one. -/
def putEntry (name : String) (node : FileNode) : List (String × FileNode) → List (String × FileNode)
  | [] => [(name, node)]
  | entry :: rest =>
    if entry.1 = name then (name, node) :: rest else entry :: putEntry name node rest

/-- Puts a node at the end of a chain of names, and makes the directories on the way. -/
def put (content : FileNode) (node : FileNode) : List String → FileNode
  | [] =>
    match content, node with
    | .directory [], .directory entries => .directory entries
    | _, _ => content
  | name :: rest =>
    match node with
    | .file _ | .unreadable _ => .directory [(name, put content (.directory []) rest)]
    | .directory entries =>
      let below := (node.entry? name).getD (.directory [])
      .directory (putEntry name (put content below rest) entries)

end FileNode

/-- A root directory and the working directory below it. -/
structure FileTree where
  /-- The root. -/
  root : FileNode
  /-- The names that lead from the root to the working directory. -/
  workingDirectory : List String := []
  deriving Inhabited

namespace FileTree

/-- Follows one piece of a path from a directory given by the names that lead to it. -/
def step (tree : FileTree) (place : List String) (piece : String) :
    Except FileError (List String) :=
  match tree.root.descend? place with
  | none => .error .notFound
  | some node =>
    if !node.isDirectory then .error .notDirectory
    else if piece = "" || piece = "." then .ok place
    else if piece = ".." then .ok place.dropLast
    else if (node.entry? piece).isSome then .ok (place ++ [piece])
    else .error .notFound

/-- The place that a path leads to, as the names from the root. The empty path leads nowhere. -/
def locate (tree : FileTree) (p : Path) : Except FileError (List String) :=
  if p.text = "" then .error .notFound
  else p.pieces.foldlM tree.step (if p.isAbsolute then [] else tree.workingDirectory)

/-- What a path leads to. -/
def find (tree : FileTree) (p : Path) : Except FileError FileNode := do
  let place ← tree.locate p
  match tree.root.descend? place with
  | some node => .ok node
  | none => .error .notFound

/-- Whether a path leads to anything. -/
def contains (tree : FileTree) (p : Path) : Bool := (tree.find p).toOption.isSome

/-- Whether a path leads to a directory. -/
def isDirectory (tree : FileTree) (p : Path) : Bool :=
  (tree.find p).toOption.any FileNode.isDirectory

/-- Whether a path leads to a regular file. -/
def isFile (tree : FileTree) (p : Path) : Bool :=
  (tree.find p).toOption.any fun node => !node.isDirectory

/-- The text of the file that a path leads to. -/
def readText (tree : FileTree) (p : Path) : Except FileError String := do
  match ← tree.find p with
  | .directory _ => .error .isDirectory
  | .unreadable error => .error (.refused error)
  | .file bytes =>
    match String.fromUTF8? bytes with
    | some text => .ok text
    | none => .error .notText

/-- A tree with nothing in it but an empty working directory. -/
def empty (workingDirectory : List String) : FileTree :=
  ⟨FileNode.put (.directory []) (.directory []) workingDirectory, workingDirectory⟩

/-- Puts a file or a directory at a path, and makes the directories on the way. -/
def put (tree : FileTree) (p : Path) (content : FileNode) : FileTree :=
  let names := p.pieces.filter fun piece => piece != "" && piece != "."
  let start := if p.isAbsolute then [] else tree.workingDirectory
  { tree with root := FileNode.put content tree.root (start ++ names) }

end FileTree

end Station
