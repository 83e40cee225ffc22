import Station.Path
import Station.Table
import Station.Text.Blank
import Station.Text.Line

/-!
# The locale index

A line of a locale file defines a message key if the key stands at its very start and an equals sign
follows, with nothing but white space between them. A key is a run of ASCII letters, digits, `_` and
`-`. The index keeps, for every key, all the places that define it, in the order in which they were
read.
-/

namespace Station

/-- A line of a file. -/
structure KeyLocation where
  /-- The file. -/
  path : Path
  /-- The number of the line, counted from one. -/
  line : Nat
  deriving DecidableEq, Repr, Inhabited

/-- The text of a location. -/
def KeyLocation.text (l : KeyLocation) : String := l.path.text ++ ":" ++ toString l.line

namespace Locale

/-- Whether a character may stand in a key. -/
def isKeyCharacter (c : Char) : Bool :=
  c.isAlphanum || c == '_' || c == '-'

/-- The key that a line defines, if it defines one. -/
def keyOf? (line : List Char) : Option String :=
  let key := line.takeWhile isKeyCharacter
  match (line.drop key.length).dropWhile Text.isBlank with
  | '=' :: _ => if key.isEmpty then none else some (String.ofList key)
  | _ => none

/-- The keys that some lines define with the numbers of their lines, counted from `number`. -/
def keysFrom (number : Nat) : List (List Char) → List (String × Nat)
  | [] => []
  | line :: rest =>
    match keyOf? line with
    | some key => (key, number) :: keysFrom (number + 1) rest
    | none => keysFrom (number + 1) rest

/-- The keys that a text defines with the numbers of their lines. -/
def definitions (text : String) : List (String × Nat) := keysFrom 1 (Text.lines text)

end Locale

/-- Every message key with the places that define it. -/
structure LocaleIndex where
  /-- The places, by ascending key. -/
  keys : Table String (List KeyLocation) := .empty
  deriving Inhabited

namespace LocaleIndex

/-- The places that define a key. -/
def locations (index : LocaleIndex) (key : String) : List KeyLocation :=
  (index.keys.get? key).getD []

/-- Records one more place that defines a key. -/
def add (index : LocaleIndex) (key : String) (location : KeyLocation) : LocaleIndex :=
  ⟨index.keys.insert key (index.locations key ++ [location])⟩

/-- Records the keys of a text, which was read from a path. -/
def addText (index : LocaleIndex) (text : String) (path : Path) : LocaleIndex :=
  (Locale.definitions text).foldl (fun index (key, line) => index.add key ⟨path, line⟩) index

/-- Whether some place defines a key. -/
def contains (index : LocaleIndex) (key : String) : Bool := index.keys.contains key

/-- The number of keys. -/
def size (index : LocaleIndex) : Nat := index.keys.size

/-- Whether there is no key. -/
def isEmpty (index : LocaleIndex) : Bool := index.size == 0

/-- The keys that two or more places define, by ascending key. -/
def duplicates (index : LocaleIndex) : List (String × List KeyLocation) :=
  index.keys.rows.filter fun row => decide (1 < row.2.length)

end LocaleIndex

end Station
