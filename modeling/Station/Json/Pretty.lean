import Station.Json

/-!
# Writing JSON

The text of a JSON value with one entry per line, each level of nesting indented by two spaces. An
empty collection stays on its line. Quotes, backslashes and control characters are escaped, and
nothing else is.
-/

namespace Station.Json

/-- How a character is written between quotes. -/
def escaped (c : Char) : List Char :=
  match c with
  | '"' => ['\\', '"']
  | '\\' => ['\\', '\\']
  | '\x08' => ['\\', 'b']
  | '\x0c' => ['\\', 'f']
  | '\n' => ['\\', 'n']
  | '\r' => ['\\', 'r']
  | '\t' => ['\\', 't']
  | c =>
    if c.toNat < 0x20 then
      ['\\', 'u', '0', '0', Text.hexDigit (c.toNat / 16), Text.hexDigit (c.toNat % 16)]
    else [c]

/-- A text between quotes. -/
def quoted (text : String) : String :=
  "\"" ++ String.ofList (text.toList.flatMap escaped) ++ "\""

/-- A new line with its indentation. -/
def newLine (level : Nat) : String := "\n" ++ String.ofList (List.replicate (2 * level) ' ')

mutual

/-- The text of a value at a level of nesting. -/
def renderAt (level : Nat) : Json → String
  | .null => "null"
  | .bool true => "true"
  | .bool false => "false"
  | .number text => text
  | .string text => quoted (text.getD "")
  | .array [] => "[]"
  | .array (item :: rest) =>
    "[" ++ newLine (level + 1) ++ renderAt (level + 1) item ++ renderItems (level + 1) rest ++
      newLine level ++ "]"
  | .object [] => "\x7b\x7d"
  | .object ((key, value) :: rest) =>
    "\x7b" ++ newLine (level + 1) ++ quoted (key.getD "") ++ ": " ++ renderAt (level + 1) value ++
      renderEntries (level + 1) rest ++ newLine level ++ "\x7d"

/-- The texts of the items after the first one. -/
def renderItems (level : Nat) : List Json → String
  | [] => ""
  | item :: rest => "," ++ newLine level ++ renderAt level item ++ renderItems level rest

/-- The texts of the entries after the first one. -/
def renderEntries (level : Nat) : List (Option String × Json) → String
  | [] => ""
  | (key, value) :: rest =>
    "," ++ newLine level ++ quoted (key.getD "") ++ ": " ++ renderAt level value ++
      renderEntries level rest

end

/-- The text of a value. -/
def pretty (j : Json) : String := renderAt 0 j

end Station.Json
