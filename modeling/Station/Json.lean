import Station.Json.Token

/-!
# JSON values

A JSON value as a tree. Numbers stay as they are written, and an object keeps all its entries,
repeated keys too. A string that spells out half of a surrogate pair has no text. Reading is a loop
over tokens with the open collections on a stack, so it nests as deep as the text does.
-/

namespace Station

/-- A JSON value. -/
inductive Json where
  /-- Nothing. -/
  | null
  /-- A truth value. -/
  | bool (value : Bool)
  /-- A number, as it is written. -/
  | number (text : String)
  /-- A string, with its text if it has one. -/
  | string (text : Option String)
  /-- A list of values. -/
  | array (items : List Json)
  /-- Values under keys. -/
  | object (entries : List (Option String × Json))
  deriving Inhabited, Repr

namespace Json

/-- The string of a text. -/
def ofText (text : String) : Json := .string (some text)

/-- The strings of texts. -/
def ofTexts (texts : List String) : Json := .array (texts.map ofText)

/-- The number of a natural number. -/
def ofNat (n : Nat) : Json := .number (toString n)

/-- An object with texts for keys. -/
def record (entries : List (String × Json)) : Json :=
  .object (entries.map fun (name, value) => (some name, value))

/-- A collection that is still open. -/
inductive Open where
  /-- A list with the values so far, last first. -/
  | array (items : List Json)
  /-- An object with the entries so far, last first, and the key whose value is next. -/
  | object (entries : List (Option String × Json)) (key : Option String)
  deriving Inhabited, Repr

mutual

/-- Reads a value inside open collections, innermost first, up to the end of the text. -/
def readValue (stack : List Open) : List Token → Option Json
  | .null :: rest => readOn stack .null rest
  | .bool value :: rest => readOn stack (.bool value) rest
  | .number text :: rest => readOn stack (.number text) rest
  | .string text :: rest => readOn stack (.string text) rest
  | .arrayStart :: .arrayEnd :: rest => readOn stack (.array []) rest
  | .arrayStart :: rest => readValue (.array [] :: stack) rest
  | .objectStart :: .objectEnd :: rest => readOn stack (.object []) rest
  | .objectStart :: .string key :: .colon :: rest => readValue (.object [] key :: stack) rest
  | _ => none
  termination_by tokens => tokens.length

/-- Reads on after a value. -/
def readOn (stack : List Open) (value : Json) (tokens : List Token) : Option Json :=
  match stack, tokens with
  | [], [] => some value
  | .array items :: outer, .comma :: rest => readValue (.array (value :: items) :: outer) rest
  | .array items :: outer, .arrayEnd :: rest =>
    readOn outer (.array (value :: items).reverse) rest
  | .object entries key :: outer, .comma :: .string next :: .colon :: rest =>
    readValue (.object ((key, value) :: entries) next :: outer) rest
  | .object entries key :: outer, .objectEnd :: rest =>
    readOn outer (.object ((key, value) :: entries).reverse) rest
  | _, _ => none
  termination_by tokens.length

end

/-- The value that a text holds. -/
def parse? (text : String) : Option Json := do
  let tokens ← tokensOf? text.toList
  readValue [] tokens

/-- The text of a string, if it is one and has one. -/
def text? : Json → Option String
  | .string text => text
  | _ => none

/-- The truth value of a word. -/
def bool? : Json → Option Bool
  | .bool value => some value
  | _ => none

/-- The natural number that a number is written as: with digits alone. -/
def nat? : Json → Option Nat
  | .number text => text.toNat?
  | _ => none

end Json

end Station
