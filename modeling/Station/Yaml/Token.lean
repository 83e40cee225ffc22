/-!
# Tokens

The tokens of a YAML text: indicators, the layout of blocks made explicit, and scalars.
-/

namespace Station.Yaml

/-- How a scalar is written. -/
inductive ScalarStyle where
  /-- As it stands. -/
  | plain
  /-- Between single or double quotes. -/
  | quoted
  /-- As a block whose line ends are kept. -/
  | literal
  /-- As a block whose line ends are folded. -/
  | folded
  deriving DecidableEq, Repr, Inhabited

/-- A tag or a part of one. Percent signs may spell bytes that are no text; then each byte counts as
a character of its own. -/
structure TagText where
  /-- Its characters. -/
  characters : String
  /-- Whether its bytes are a text. -/
  wellFormed : Bool := true
  deriving DecidableEq, Repr, Inhabited

namespace TagText

/-- The tag of bytes; a zero byte ends it. -/
def ofBytes (bytes : List UInt8) : TagText :=
  let bytes := bytes.takeWhile (· != 0)
  match String.fromUTF8? bytes.toByteArray with
  | some characters => { characters }
  | none => { characters := .ofList (bytes.map fun b => .ofNat b.toNat), wellFormed := false }

/-- A part of a tag and the part that follows it. -/
def append (start rest : TagText) : TagText :=
  ⟨start.characters ++ rest.characters, start.wellFormed && rest.wellFormed⟩

/-- The tag as a text. A local tag, which starts with an exclamation mark, that is no text counts as
no tag. -/
def text? (t : TagText) : Option String :=
  if t.wellFormed || t.characters.toList.head? != some '!' then some t.characters else none

end TagText

/-- A token. -/
inductive Token where
  /-- The end of the text. -/
  | streamEnd
  /-- The version that a directive names. -/
  | version (major minor : Nat)
  /-- A tag handle and what it stands for. -/
  | tagDirective (handle : String) (start : TagText)
  /-- The mark in front of a document. -/
  | documentStart
  /-- The mark behind a document. -/
  | documentEnd
  /-- The first entry of a block sequence follows. -/
  | blockSequenceStart
  /-- The first key of a block mapping follows. -/
  | blockMappingStart
  /-- A block collection is over. -/
  | blockEnd
  /-- An opening square bracket. -/
  | flowSequenceStart
  /-- A closing square bracket. -/
  | flowSequenceEnd
  /-- An opening brace. -/
  | flowMappingStart
  /-- A closing brace. -/
  | flowMappingEnd
  /-- The dash of a block entry. -/
  | blockEntry
  /-- A comma between flow entries. -/
  | flowEntry
  /-- A key follows. -/
  | key
  /-- The value of a key follows. -/
  | value
  /-- The node with an anchor is meant. -/
  | alias (name : String)
  /-- The node that follows gets an anchor. -/
  | anchor (name : String)
  /-- The node that follows gets a tag; without a handle the suffix is all of it. -/
  | tag (handle : String) (suffix : TagText)
  /-- A scalar. -/
  | scalar (text : String) (style : ScalarStyle)
  deriving DecidableEq, Repr, Inhabited

end Station.Yaml
