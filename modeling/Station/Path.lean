/-!
# Paths

A path is its text, as a Unix system reads it, and every operation keeps the text it was given: the
join of two paths keeps repeated slashes and dots. Its components are what remains of the text once
repeated slashes and inner dots are dropped; they decide how paths compare.
-/

namespace Station

/-- A Unix path. -/
structure Path where
  /-- The text of the path. -/
  text : String
  deriving DecidableEq, Repr, Inhabited

namespace Path

/-- One step of a path. -/
inductive Component where
  /-- The root of the file system. -/
  | root
  /-- The directory itself, at the start of a relative path. -/
  | current
  /-- The directory above. -/
  | parent
  /-- An entry of the directory. -/
  | name (text : String)
  deriving DecidableEq, Repr, Inhabited, Ord

/-- The pieces of a text between slashes; a text without a slash is one piece. -/
def splitSlash : List Char → List (List Char)
  | [] => [[]]
  | c :: rest =>
    if c = '/' then [] :: splitSlash rest
    else
      match splitSlash rest with
      | [] => [[c]]
      | piece :: pieces => (c :: piece) :: pieces

/-- The pieces of a path between slashes, empty ones included. -/
def pieces (p : Path) : List String := (splitSlash p.text.toList).map String.ofList

/-- Whether a path starts at the root. -/
def isAbsolute (p : Path) : Bool := p.text.toList.head? == some '/'

/-- The step that a piece of text stands for, unless it stands for none. Only the first piece of a
relative path may be a dot. -/
def component? (first : Bool) (piece : String) : Option Component :=
  if piece = "" then none
  else if piece = "." then if first then some .current else none
  else if piece = ".." then some .parent
  else some (.name piece)

/-- The steps of a path, in order. -/
def components (p : Path) : List Component :=
  if p.isAbsolute then .root :: p.pieces.filterMap (component? false)
  else
    match p.pieces with
    | [] => []
    | piece :: rest => (component? true piece).toList ++ rest.filterMap (component? false)

/-- Paths compare by their steps: root, dot, parent, then names by their characters. -/
instance : Ord Path := ⟨fun p q => compare p.components q.components⟩

/-- Puts a path below a base; an absolute path stands for itself. -/
def join (base p : Path) : Path :=
  if p.isAbsolute then p
  else if base.text.toList.getLast?.all (· == '/') then ⟨base.text ++ p.text⟩
  else ⟨base.text ++ "/" ++ p.text⟩

/-- Drops pieces from the end that stand for no step. -/
def trimPieces (isFirst : Bool) : List String → List String
  | [] => []
  | piece :: rest =>
    match trimPieces false rest with
    | [] => if (component? isFirst piece).isSome then [piece] else []
    | kept => piece :: kept

/-- The path without its last step. The root and the empty path have no parent. -/
def parent? (p : Path) : Option Path :=
  if p.isAbsolute then
    match trimPieces false (p.pieces.drop 1) with
    | [] => none
    | kept =>
      match trimPieces false kept.dropLast with
      | [] => some ⟨"/"⟩
      | above => some ⟨"/" ++ "/".intercalate above⟩
  else
    match trimPieces true p.pieces with
    | [] => none
    | kept => some ⟨"/".intercalate (trimPieces true kept.dropLast)⟩

/-- The name of the entry that a path leads to. -/
def fileName? (p : Path) : Option String :=
  match p.components.getLast? with
  | some (.name text) => some text
  | _ => none

/-- What follows the last dot of a name; a name has none if its only dot is at its start. -/
def extensionOf? (name : String) : Option String :=
  let characters := name.toList.reverse
  let suffix := characters.takeWhile (· != '.')
  match characters.drop suffix.length with
  | [] | [_] => none
  | _ => some (String.ofList suffix.reverse)

/-- The extension of the entry that a path leads to. -/
def extension? (p : Path) : Option String := p.fileName?.bind extensionOf?

/-- Paths in order; equal ones keep their order. -/
def sort (paths : List Path) : List Path := paths.mergeSort fun p q => (compare p q).isLE

end Path

end Station
