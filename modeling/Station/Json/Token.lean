import Station.Text.Hex

/-!
# Tokens of JSON texts

A JSON text is a run of tokens with white space between them: space, tab, line feed and carriage
return. Strings may write any UTF-16 unit by its number, so a string may spell out half of a
surrogate pair; such a string is a token, but it has no text.
-/

namespace Station.Json

/-- A token. -/
inductive Token where
  /-- An opening brace. -/
  | objectStart
  /-- A closing brace. -/
  | objectEnd
  /-- An opening square bracket. -/
  | arrayStart
  /-- A closing square bracket. -/
  | arrayEnd
  /-- A comma. -/
  | comma
  /-- A colon. -/
  | colon
  /-- The word for nothing. -/
  | null
  /-- A word for a truth value. -/
  | bool (value : Bool)
  /-- A number, as it is written. -/
  | number (text : String)
  /-- A string, with its text if it has one. -/
  | string (text : Option String)
  deriving DecidableEq, Repr, Inhabited

/-! ## Strings -/

/-- What a character stands for after a backslash. -/
def escape? (c : Char) : Option Char :=
  match c with
  | '"' => some '"'
  | '\\' => some '\\'
  | '/' => some '/'
  | 'b' => some '\x08'
  | 'f' => some '\x0c'
  | 'n' => some '\n'
  | 'r' => some '\r'
  | 't' => some '\t'
  | _ => none

/-- Reads the body of a string and its closing quote: the numbers of its characters and units, and
how many characters of the text they take. -/
def body? : List Char → Option (List Nat × Nat)
  | '"' :: _ => some ([], 1)
  | '\\' :: 'u' :: a :: b :: c :: d :: rest => do
    let unit ← Text.hexNumber? [a, b, c, d]
    let (units, length) ← body? rest
    return (unit :: units, length + 6)
  | '\\' :: c :: rest => do
    let meant ← escape? c
    let (units, length) ← body? rest
    return (meant.toNat :: units, length + 2)
  | c :: rest =>
    if c == '\\' || c.toNat < 0x20 then none
    else do
      let (units, length) ← body? rest
      return (c.toNat :: units, length + 1)
  | [] => none

/-- Whether a unit is the first half of a surrogate pair. -/
def isHighHalf (unit : Nat) : Bool := 0xD800 ≤ unit && unit < 0xDC00

/-- Whether a unit is the second half of a surrogate pair. -/
def isLowHalf (unit : Nat) : Bool := 0xDC00 ≤ unit && unit < 0xE000

/-- The characters that units spell out, unless half of a pair stands alone. -/
def joinHalves? : List Nat → Option (List Char)
  | [] => some []
  | high :: low :: rest =>
    if isHighHalf high then
      if isLowHalf low then
        (joinHalves? rest).map
          (Char.ofNat (0x10000 + (high - 0xD800) * 0x400 + (low - 0xDC00)) :: ·)
      else none
    else if isLowHalf high then none
    else (joinHalves? (low :: rest)).map (Char.ofNat high :: ·)
  | [unit] => if isHighHalf unit || isLowHalf unit then none else some [Char.ofNat unit]

/-! ## Numbers -/

/-- Splits off the digits in front, of which there is at least one. -/
def digits? (text : List Char) : Option (List Char × List Char) :=
  let run := text.takeWhile Char.isDigit
  if run.isEmpty then none else some (run, text.drop run.length)

/-- Splits off a whole number without a sign, which starts with a zero only if it is zero. -/
def whole? (text : List Char) : Option (List Char × List Char) :=
  match text with
  | '0' :: rest => if rest.head?.any Char.isDigit then none else some (['0'], rest)
  | text => digits? text

/-- Splits off a fraction, if there is one. -/
def fraction? (text : List Char) : Option (List Char × List Char) :=
  match text with
  | '.' :: rest => (digits? rest).map fun (run, rest) => ('.' :: run, rest)
  | text => some ([], text)

/-- Splits off a sign, if there is one. -/
def sign (signs text : List Char) : List Char × List Char :=
  match text with
  | c :: rest => if signs.contains c then ([c], rest) else ([], text)
  | [] => ([], [])

/-- Splits off an exponent, if there is one. -/
def exponent? (text : List Char) : Option (List Char × List Char) :=
  match text with
  | c :: rest =>
    if c == 'e' || c == 'E' then
      let (sign, rest) := sign ['+', '-'] rest
      (digits? rest).map fun (run, rest) => (c :: sign ++ run, rest)
    else some ([], text)
  | [] => some ([], [])

/-- The number in front of a text. -/
def number? (text : List Char) : Option (List Char) := do
  let (sign, rest) := sign ['-'] text
  let (whole, rest) ← whole? rest
  let (fraction, rest) ← fraction? rest
  let (exponent, _) ← exponent? rest
  return sign ++ whole ++ fraction ++ exponent

/-! ## Texts -/

/-- Whether a character is white space. -/
def isSpace (c : Char) : Bool := c == ' ' || c == '\t' || c == '\n' || c == '\r'

/-- The words and what they stand for. -/
def words : List (String × Token) :=
  [("null", .null), ("true", .bool true), ("false", .bool false)]

/-- The token in front of a text, and how many characters it takes beyond the first one. -/
def next? (c : Char) (rest : List Char) : Option (Token × Nat) :=
  match c with
  | '{' => some (.objectStart, 0)
  | '}' => some (.objectEnd, 0)
  | '[' => some (.arrayStart, 0)
  | ']' => some (.arrayEnd, 0)
  | ',' => some (.comma, 0)
  | ':' => some (.colon, 0)
  | '"' => (body? rest).map fun (units, length) =>
      (.string ((joinHalves? units).map String.ofList), length)
  | c =>
    match words.find? fun (word, _) => word.toList.isPrefixOf (c :: rest) with
    | some (word, token) => some (token, word.length - 1)
    | none => (number? (c :: rest)).map fun text =>
        (.number (String.ofList text), text.length - 1)

/-- The tokens of characters. -/
def tokensOf? : List Char → Option (List Token)
  | [] => some []
  | c :: rest =>
    if isSpace c then tokensOf? rest
    else
      match next? c rest with
      | none => none
      | some (token, more) => (tokensOf? (rest.drop more)).map (token :: ·)
  termination_by text => text.length
  decreasing_by
    · simp
    · simp only [List.length_drop, List.length_cons]
      omega

end Station.Json
