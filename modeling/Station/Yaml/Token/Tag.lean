import Station.Text.Hex
import Station.Yaml.Cursor
import Station.Yaml.Token

/-!
# Names, tags and directives

Reading anchors, aliases and tags in front of a node, and the directives in front of a document.
-/

namespace Station.Yaml

/-- Reads the name of an anchor or an alias from its indicator on. -/
def scanAnchor (c : Cursor) : Except Problem (String × Cursor) :=
  let (name, c) := c.skip.span isWord
  let ended := c.seesWordEndAt 0 || c.peek?.any fun ch =>
    ch == '?' || ch == ':' || ch == ',' || ch == ']' || ch == '}' || ch == '%' || ch == '@' ||
      ch == '\x60'
  if name.isEmpty || !ended then .error .badAnchor else .ok (String.ofList name, c)

/-! ## Tags -/

/-- Characters that stand for themselves in a tag. Commas and square brackets may stand only between
angle brackets and in directives. -/
def isTagCharacter (verbatim : Bool) (c : Char) : Bool :=
  isWord c || ";/?:@&=+$.!~*'()".toList.contains c ||
    (verbatim && (c == ',' || c == '[' || c == ']'))

/-- The byte that a percent sign and two hexadecimal digits stand for. -/
def percentByte? (c : Cursor) : Option UInt8 :=
  match c.rest with
  | '%' :: high :: low :: _ => (Text.hexNumber? [high, low]).map UInt8.ofNat
  | _ => none

/-- The number of bytes of a character whose first byte this is. -/
def sequenceLength? (byte : UInt8) : Option Nat :=
  if byte < 0x80 then some 1
  else if byte < 0xC0 then none
  else if byte < 0xE0 then some 2
  else if byte < 0xF0 then some 3
  else if byte < 0xF8 then some 4
  else none

/-- Reads the later bytes of a character that is written with percent signs. -/
def percentTail : Nat → List UInt8 → Cursor → Except Problem (List UInt8 × Cursor)
  | 0, bytes, c => .ok (bytes, c)
  | count + 1, bytes, c =>
    match percentByte? c with
    | some byte =>
      if 0x80 ≤ byte && byte < 0xC0 then percentTail count (bytes ++ [byte]) (c.advance 3)
      else .error .badTag
    | none => .error .badTag

/-- Reads a character that is written with percent signs. -/
def percentCharacter (c : Cursor) : Except Problem (List UInt8 × Cursor) :=
  match percentByte? c with
  | none => .error .badTag
  | some byte =>
    match sequenceLength? byte with
    | none => .error .badTag
    | some count => percentTail (count - 1) [byte] (c.advance 3)

/-- Reads the bytes of a tag, which are returned last first. -/
def tagBytes (verbatim : Bool) :
    Nat → List UInt8 → Cursor → Except Problem (List UInt8 × Cursor)
  | 0, bytes, c => .ok (bytes, c)
  | fuel + 1, bytes, c =>
    match c.peek? with
    | none => .ok (bytes, c)
    | some ch =>
      if ch == '%' then do
        let (character, c) ← percentCharacter c
        tagBytes verbatim fuel (character.reverse ++ bytes) c
      else if isTagCharacter verbatim ch then
        tagBytes verbatim fuel (ch.toNat.toUInt8 :: bytes) c.skip
      else .ok (bytes, c)

/-- Reads the rest of a tag whose beginning was read already. A tag is not empty. -/
def scanTagText (verbatim : Bool) (beginning : String) (mayBeEmpty : Bool) (c : Cursor) :
    Except Problem (TagText × Cursor) := do
  let (bytes, next) ← tagBytes verbatim (c.size + 1) beginning.toUTF8.toList.reverse c
  if next.index = c.index && !mayBeEmpty then throw .badTag
  return (.ofBytes bytes.reverse, next)

/-- Reads a tag handle as far as it goes. -/
def scanHandle (c : Cursor) : Except Problem (String × Cursor) :=
  if !c.sees '!' then .error .badTag
  else
    let (name, c) := c.skip.span isWord
    if c.sees '!' then .ok ("!" ++ String.ofList name ++ "!", c.skip)
    else .ok ("!" ++ String.ofList name, c)

/-- Whether a handle is more than one exclamation mark and ends with one. -/
def isFullHandle (handle : String) : Bool :=
  1 < handle.length && handle.toList.getLast? == some '!'

/-- Reads a tag: a text between angle brackets, a handle with a suffix, or a local tag. A lone
exclamation mark is a tag without a handle. -/
def scanTag (inFlow : Bool) (c : Cursor) : Except Problem (Token × Cursor) := do
  let (token, c) ←
    if c.peekAt? 1 == some '<' then do
      let (suffix, c) ← scanTagText true "" false (c.advance 2)
      if !c.sees '>' then throw .badTag
      pure (Token.tag "" suffix, c.skip)
    else do
      let (handle, c) ← scanHandle c
      if isFullHandle handle then
        let (suffix, c) ← scanTagText false "" false c
        pure (Token.tag handle suffix, c)
      else
        let beginning := String.ofList (handle.toList.drop 1)
        let (suffix, c) ← scanTagText false beginning true c
        if suffix.characters.isEmpty then pure (Token.tag "" ⟨"!", true⟩, c)
        else pure (Token.tag "!" suffix, c)
  if c.seesWordEndAt 0 || (inFlow && c.sees ',') then return (token, c) else throw .badTag

/-! ## Directives -/

/-- Reads a number of at most nine digits. -/
def scanVersionNumber (c : Cursor) : Except Problem (Nat × Cursor) :=
  let (digits, c) := c.span Char.isDigit
  if digits.isEmpty || 9 < digits.length then .error .badDirective
  else .ok (digits.foldl (fun n ch => n * 10 + (ch.toNat - '0'.toNat)) 0, c)

/-- Reads the version after the name of its directive. -/
def scanVersion (c : Cursor) : Except Problem (Token × Cursor) := do
  let (_, c) := c.span isGap
  let (major, c) ← scanVersionNumber c
  if !c.sees '.' then throw .badDirective
  let (minor, c) ← scanVersionNumber c.skip
  return (.version major minor, c)

/-- Reads a handle and what it stands for after the name of their directive. -/
def scanTagDirective (c : Cursor) : Except Problem (Token × Cursor) := do
  let (_, c) := c.span isGap
  let (handle, c) ← scanHandle c
  if handle != "!" && !isFullHandle handle then throw .badDirective
  if !c.seesGap then throw .badDirective
  let (_, c) := c.span isGap
  let (start, c) ← scanTagText true "" false c
  if !c.seesWordEndAt 0 then throw .badDirective
  return (.tagDirective handle start, c)

/-- Reads a directive with its line. -/
def scanDirective (c : Cursor) : Except Problem (Token × Cursor) := do
  let (name, c) := c.skip.span isWord
  if name.isEmpty || !c.seesWordEndAt 0 then throw .badDirective
  let (token, c) ←
    match String.ofList name with
    | "YAML" => scanVersion c
    | "TAG" => scanTagDirective c
    | _ => throw .badDirective
  let c ← c.finishLine .badDirective
  return (token, c)

end Station.Yaml
