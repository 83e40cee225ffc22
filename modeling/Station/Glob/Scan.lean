import Station.FileTree
import Station.Glob.Pattern

/-!
# Scanning directories

A scan lists the paths of a file tree that match a pattern, component by component. A component
without wildcards is looked up as it stands; any other is compared with the entries of the
directory. The chain `**` tries what follows it in the directory and everywhere below.
-/

namespace Station.Glob

/-- The text of a component without wildcards. -/
def literal? : List Token → Option String
  | [] => some ""
  | .literal c :: rest => (literal? rest).map fun text => String.ofList [c] ++ text
  | _ :: _ => none

/-- Whether a component is the chain `**`. -/
def isChain (tokens : List Token) : Bool := tokens == [.anyChain]

/-- The working directory, however its dots and slashes are written. -/
def isHere (p : Path) : Bool := p.components == [.current]

/-- The path of an entry of a directory. Entries of the working directory go by their name alone. -/
def entryPath (p : Path) (name : String) : Path := if isHere p then ⟨name⟩ else p.join ⟨name⟩

mutual

/-- A node and everything below it, each before what it holds; `path` is the path of the node. -/
def withDescendants (path : Path) (name : String) : FileNode → List (Path × String)
  | .file _ | .unreadable _ => [(path, name)]
  | .directory entries => (path, name) :: descendants path entries

/-- Every entry of a directory and everything below it. -/
def descendants (path : Path) : List (String × FileNode) → List (Path × String)
  | [] => []
  | (name, node) :: rest =>
    withDescendants (path.join ⟨name⟩) name node ++ descendants path rest

end

/-- The paths of the entries of a directory with their names. -/
def entriesOf (tree : FileTree) (p : Path) : List (Path × String) :=
  match tree.find p with
  | .error _ => []
  | .ok node => node.entries.map fun (name, _) => (entryPath p name, name)

/-- The paths of everything below a directory with their names. -/
def allBelow (tree : FileTree) (p : Path) : List (Path × String) :=
  match tree.find p with
  | .error _ => []
  | .ok node => node.entries.flatMap fun (name, child) =>
      withDescendants (entryPath p name) name child

/-- The dot entries of a directory. A component with wildcards finds them only if it starts with a
dot. -/
def dotEntries (tokens : List Token) : List String :=
  if tokens.head? = some (.literal '.') then
    ["..", "."].filter fun name => matchesAll tokens name.toList
  else []

/-- What the components of a pattern find below a path. The last component yields the paths that it
matches. -/
def find (tree : FileTree) : List (List Token) → Path → List Path
  | [], p => [p]
  | tokens :: rest, p =>
    match literal? tokens with
    | some name =>
      let next := if isHere p then ⟨name⟩ else p.join ⟨name⟩
      let found :=
        if name = "." || name = ".." then tree.isDirectory p else tree.contains next
      if found then find tree rest next else []
    | none =>
      if !tree.isDirectory p then []
      else if isChain tokens then
        match rest with
        | [] => ((allBelow tree p).map (·.1)).filter tree.isDirectory
        | next :: others =>
          if isChain next then find tree (next :: others) p
          else (allBelow tree p).flatMap fun (path, name) =>
            if matchesAll next name.toList then find tree others path else []
      else
        ((dotEntries tokens).flatMap fun name => find tree rest (p.join ⟨name⟩)) ++
          (entriesOf tree p).flatMap fun (path, name) =>
            if matchesAll tokens name.toList then find tree rest path else []

/-- Lists what a pattern matches. The whole pattern is read first, then each of its components. -/
def scan (tree : FileTree) (pattern : Path) : Except PatternError (List Path) := do
  let _ ← parse pattern.text
  let (start, pieces) : Path × List String :=
    if pattern.isAbsolute then (⟨"/"⟩, pattern.pieces.drop 1) else (⟨"."⟩, pattern.pieces)
  let components ← pieces.mapM parse
  return find tree components start

end Station.Glob
