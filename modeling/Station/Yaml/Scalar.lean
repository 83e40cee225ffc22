import Station.Yaml.Binary64
import Station.Yaml.Problem

/-!
# What scalars stand for

A plain scalar stands for null, a truth value, a number or itself, whichever fits first. Integers
are decimal or have a base in front; a decimal one with needless leading zeros is a text. Integers
that need more than 64 but not more than 128 bits are refused; beyond that a decimal text is read as
a floating-point number, or stays a text if it is too large for that too.
-/

namespace Station.Yaml

/-- The value of a scalar. -/
inductive Atom where
  /-- Nothing. -/
  | null
  /-- A truth value. -/
  | bool (value : Bool)
  /-- An integer of 64 bits, with a sign or without one. -/
  | int (value : Int)
  /-- A floating-point number. -/
  | float (value : Binary64)
  /-- A text. -/
  | string (text : String)
  deriving DecidableEq, Repr, Inhabited

/-- Whether a text is one of the words for nothing. -/
def isNullWord (text : String) : Bool :=
  text == "null" || text == "Null" || text == "NULL" || text == "~"

/-- The truth value that a word stands for. -/
def bool? (text : String) : Option Bool :=
  if text == "true" || text == "True" || text == "TRUE" then some true
  else if text == "false" || text == "False" || text == "FALSE" then some false
  else none

/-- The value of a digit in bases up to sixteen. -/
def digit? (base : Nat) (c : Char) : Option Nat :=
  let value :=
    if '0' ≤ c && c ≤ '9' then c.toNat - '0'.toNat
    else if 'a' ≤ c && c ≤ 'f' then c.toNat - 'a'.toNat + 10
    else if 'A' ≤ c && c ≤ 'F' then c.toNat - 'A'.toNat + 10
    else base
  if value < base then some value else none

/-- The value of digits, of which there is at least one. -/
def digits? (base : Nat) (digits : List Char) : Option Nat :=
  if digits.isEmpty then none
  else digits.foldlM (fun n c => (digit? base c).map (n * base + ·)) 0

/-- Whether a text is a run of digits with needless zeros in front. -/
def hasLeadingZeros (text : List Char) : Bool :=
  let digits :=
    match text with
    | '-' :: rest | '+' :: rest => rest
    | text => text
  match digits with
  | '0' :: c :: rest => (c :: rest).all Char.isDigit
  | _ => false

/-- The value of an integer without a sign: digits of base ten, or of the base that stands in front.
-/
def magnitude? (text : List Char) : Option Nat :=
  match text with
  | '0' :: 'x' :: rest => digits? 16 rest
  | '0' :: 'o' :: rest => digits? 8 rest
  | '0' :: 'b' :: rest => digits? 2 rest
  | text => if hasLeadingZeros text then none else digits? 10 text

/-- The integer that a text writes, of any size, and whether it has a minus sign. -/
def signed? (text : List Char) : Option (Bool × Nat) :=
  match text with
  | '-' :: rest => (magnitude? rest).map (true, ·)
  | '+' :: rest => (magnitude? rest).map (false, ·)
  | text => (magnitude? text).map (false, ·)

/-- What an integer is good for. -/
inductive IntegerSize where
  /-- It fits 64 bits. -/
  | fits (value : Int)
  /-- It needs more than 64 bits, but not more than 128. -/
  | wide
  /-- It needs more than 128 bits. -/
  | huge
  deriving DecidableEq, Repr, Inhabited

/-- Sorts an integer by its size. Without a sign it may use all bits. -/
def IntegerSize.of (negative : Bool) (n : Nat) : IntegerSize :=
  if negative then
    if n ≤ 1 <<< 63 then .fits (-n) else if n ≤ 1 <<< 127 then .wide else .huge
  else if n < UInt64.size then .fits n
  else if n < 1 <<< 128 then .wide
  else .huge

/-- The integer that a text writes, if it is no larger than 128 bits. -/
def integer? (text : List Char) : Option (Except Problem Int) :=
  match signed? text with
  | none => none
  | some (negative, n) =>
    match IntegerSize.of negative n with
    | .fits value => some (.ok value)
    | .wide => some (.error .badScalar)
    | .huge => none

/-- The number without a sign of 64 bits that a text writes. -/
def unsigned? (text : String) : Option UInt64 :=
  match signed? text.toList with
  | some (false, n) => if n < UInt64.size then some (UInt64.ofNat n) else none
  | _ => none

/-- The floating-point number that a text writes. Infinity and not-a-number have words of their own.
-/
def float? (text : String) : Option Binary64 :=
  let infinity := [".inf", ".Inf", ".INF"]
  let characters := text.toList
  let unsigned := if characters.head? == some '+' then characters.drop 1 else characters
  if characters.head? == some '+' && (unsigned.head? == some '+' || unsigned.head? == some '-') then
    none
  else if infinity.contains (String.ofList unsigned) then some (.infinity false)
  else if infinity.any fun word => text == "-" ++ word then some (.infinity true)
  else if text == ".nan" || text == ".NaN" || text == ".NAN" then some .nan
  else Binary64.ofText? unsigned

/-- What a plain scalar stands for. -/
def Atom.ofPlain (text : String) : Except Problem Atom :=
  if text.isEmpty || isNullWord text then .ok .null
  else
    match bool? text with
    | some value => .ok (.bool value)
    | none =>
      match integer? text.toList with
      | some value => value.map .int
      | none =>
        if hasLeadingZeros text.toList then .ok (.string text)
        else
          match float? text with
          | some value => .ok (.float value)
          | none => .ok (.string text)

/-- The tags of the core schema that name a type of scalar. -/
def coreTag (name : String) : String := "tag:yaml.org,2002:" ++ name

/-- What a scalar stands for under a tag that is not a local one. The tags of the core schema ask
for their type; any other tag makes a text. -/
def Atom.ofTagged (tag text : String) : Except Problem Atom :=
  if tag == coreTag "bool" then
    match bool? text with
    | some value => .ok (.bool value)
    | none => .error .badScalar
  else if tag == coreTag "int" then
    match integer? text.toList with
    | some value => value.map .int
    | none => .error .badScalar
  else if tag == coreTag "float" then
    match float? text with
    | some value => .ok (.float value)
    | none => .error .badScalar
  else if tag == coreTag "null" then
    if isNullWord text then .ok .null else .error .badScalar
  else .ok (.string text)

end Station.Yaml
