import Std.Time
import Station.CommandLine

/-!
# The program

The parts of the file system that a run may look at are read into a file tree: the configuration
file, and then the directories of its content. The command line runs on that tree, and what comes
out of it is written.
-/

namespace Station.Program

/-- The entries of the directory at a path; nothing if there is no directory. -/
def entriesAt (path : String) : IO (Option (List String)) := do
  let found ← (IO.FS.realPath path >>= fun place => place.readDir).toBaseIO
  return found.toOption.map fun entries => entries.toList.map (·.fileName)

/-- What the system said about a call that failed. -/
def refusalOf : IO.Error → SystemError
  | .alreadyExists _ code text | .interrupted _ code text | .noFileOrDirectory _ code text
  | .invalidArgument _ code text | .permissionDenied _ code text | .resourceExhausted _ code text
  | .inappropriateType _ code text | .noSuchThing _ code text => ⟨code.toNat, text⟩
  | .otherError code text | .resourceBusy code text | .resourceVanished code text
  | .unsupportedOperation code text | .hardwareFault code text | .unsatisfiedConstraints code text
  | .illegalOperation code text | .protocolError code text | .timeExpired code text =>
    ⟨code.toNat, text⟩
  | .unexpectedEof => ⟨0, "unexpected end of file"⟩
  | .userError text => ⟨0, text⟩

/-- The file at a path, whether it can be read or not, or a directory that cannot be listed, which
counts as empty; nothing if there is neither. -/
def fileAt (path : String) : IO (Option FileNode) := do
  match ← (IO.FS.readBinFile path).toBaseIO with
  | .ok bytes => return some (.file bytes)
  | .error error =>
    let found ← (IO.FS.realPath path >>= fun place => place.metadata).toBaseIO
    return found.toOption.map fun metadata =>
      if metadata.type == .dir then .directory [] else .unreadable (refusalOf error)

/-- A directory with everything below it, or a file; nothing if there is neither. -/
partial def nodeAt (path : String) : IO (Option FileNode) := do
  match ← entriesAt path with
  | none => fileAt path
  | some names =>
    let nodes ← names.filterMapM fun name => do
      return (← nodeAt (path ++ "/" ++ name)).map fun node => (name, node)
    return some (.directory nodes)

/-- The directory or the file at a path, but not what the directory holds. -/
def outlineAt (path : String) : IO (Option FileNode) := do
  match ← entriesAt path with
  | none => fileAt path
  | some _ => return some (.directory [])

/-- The names that lead from the root to a path, without dots. -/
def namesTo (tree : FileTree) (path : Path) : List String :=
  path.pieces.foldl
    (fun names piece =>
      if piece = "" || piece = "." then names
      else if piece = ".." then names.dropLast
      else names ++ [piece])
    (if path.isAbsolute then [] else tree.workingDirectory)

/-- The absolute path of names. -/
def absolute (names : List String) : Path := ⟨"/" ++ "/".intercalate names⟩

/-- Puts a node at the end of names, if there is one. -/
def place (tree : FileTree) (names : List String) (node : Option FileNode) : FileTree :=
  match node with
  | none => tree
  | some node => tree.put (absolute names) node

/-- Puts into a tree what lies at a path and what lies on the way to it. -/
def capture (tree : FileTree) (path : Path) : IO FileTree := do
  let names := namesTo tree path
  let mut tree := tree
  for length in List.range names.length do
    let above := names.take length
    tree := place tree above (← outlineAt (absolute above).text)
  return place tree names (← nodeAt (absolute names).text)

/-- The part of a path in front of the first name that is a pattern. -/
def fixedPart (path : Path) : Path :=
  let isFixed (piece : String) : Bool := !piece.toList.any fun c => c == '*' || c == '?' || c == '['
  if path.pieces.all isFixed then path
  else
    let fixed := "/".intercalate (path.pieces.takeWhile isFixed)
    if path.isAbsolute then ⟨"/" ++ fixed⟩ else ⟨"./" ++ fixed⟩

/-- The part of the file system that words ask for. -/
def treeFor (words : List String) : IO FileTree := do
  let here ← IO.currentDir
  let names := (Path.pieces ⟨here.toString⟩).filter (· != "")
  let mut tree := FileTree.empty names
  if let .ok invocation := CommandLine.parse words then
    if let some path := invocation.config then
      tree ← capture tree path
    if let .ok config := ServerConfig.forRun tree invocation.config then
      for directory in CommandLine.directoriesOf config invocation.command do
        tree ← capture tree (fixedPart directory)
  return tree

/-- The time, as a report carries it. -/
def timeText : IO String := do
  let now ← Std.Time.Timestamp.now
  let time := Std.Time.DateTime.ofTimestamp now .UTC
  return time.format "uuuu-MM-dd'T'HH:mm:ss.SSSSSSSSSxxx"

/-- Keeps a server running until the program is stopped. -/
partial def serve (server : Server) (interval : UInt64) : IO Unit := do
  let status := server.gate.status
  IO.eprintln ("join queue status enabled=" ++ toString status.enabled ++ " queued=" ++
    toString status.queued ++ " connected=" ++ toString status.connected)
  IO.sleep (1000 * (min interval 4294967)).toUInt32
  serve server interval

end Station.Program

open Station Program in
/-- Runs the program. -/
def main (words : List String) : IO UInt32 := do
  match CommandLine.run (← treeFor words) (← timeText) words with
  | .finished outcome =>
    IO.print outcome.stdout
    IO.eprint outcome.stderr
    return outcome.exit
  | .serving server interval =>
    serve server interval
    return 0
