import Station.Yaml.Node
import Station.Yaml.Scalar

/-!
# Values

What a document means once aliases are replaced by what they stand for and scalars by their values.
A local tag stays around its value. It covers the keys of a mapping with it: their own tags do not
count, nor do those of the keys of a key. The keys of a mapping differ from one another, where the
order of the entries of a mapping that is itself a key does not count.
-/

namespace Station.Yaml

/-- A value. -/
inductive Value where
  /-- The value of a scalar. -/
  | atom (value : Atom)
  /-- A sequence. -/
  | sequence (items : List Value)
  /-- A mapping. -/
  | mapping (entries : List (Value × Value))
  /-- A value under a local tag, by the name of the tag. -/
  | tagged (tag : String) (value : Value)
  deriving Inhabited, Repr

namespace Value

/-- Nothing. -/
abbrev null : Value := .atom .null

/-- A text. -/
abbrev string (text : String) : Value := .atom (.string text)

mutual

/-- Whether two values are the same key. -/
def same : Value → Value → Bool
  | .atom a, .atom b => a == b
  | .sequence xs, .sequence ys => sameItems xs ys
  | .mapping xs, .mapping ys => xs.length == ys.length && sameEntries xs ys
  | .tagged s x, .tagged t y => s == t && same x y
  | _, _ => false

/-- Whether sequences agree item by item. -/
def sameItems : List Value → List Value → Bool
  | [], [] => true
  | x :: xs, y :: ys => same x y && sameItems xs ys
  | _, _ => false

/-- Whether every entry of a mapping is among the entries of another. -/
def sameEntries : List (Value × Value) → List (Value × Value) → Bool
  | [], _ => true
  | (key, value) :: rest, ys =>
    ys.any (fun entry => same key entry.1 && same value entry.2) && sameEntries rest ys

end

/-- A value without the tags around it. -/
def untag : Value → Value
  | .tagged _ value => untag value
  | value => value

/-- The text that a value is, with tags or without. -/
def string? (v : Value) : Option String :=
  match v.untag with
  | .atom (.string text) => some text
  | _ => none

/-- The value under a text among entries; a tagged text is another key. -/
def lookup (key : String) : List (Value × Value) → Option Value
  | [] => none
  | (.atom (.string text), value) :: rest => if text = key then some value else lookup key rest
  | _ :: rest => lookup key rest

/-- The value that a mapping, with tags or without, holds under a text. -/
def get? (v : Value) (key : String) : Option Value :=
  match v.untag with
  | .mapping entries => lookup key entries
  | _ => none

end Value

/-- How deep collections may be nested. -/
def maxDepth : Nat := 128

/-- A text without the exclamation mark in front of it, unless it is nothing more than that. -/
def dropMark : List Char → List Char
  | '!' :: c :: rest => c :: rest
  | text => text

/-- The name of a local tag, which starts with an exclamation mark. A second mark in front makes no
other name. -/
def localTag? (tag : String) : Option String :=
  if tag.toList.head? == some '!' then some (String.ofList (dropMark (dropMark tag.toList)))
  else none

/-- Puts a local tag around a value; other tags leave no trace. -/
def withTag (tag : Option String) (value : Value) : Value :=
  match tag.bind localTag? with
  | none => value
  | some name => .tagged name value

/-- The value of a scalar. Under a local tag, as without any, a plain scalar stands for what it
looks like and any other one for itself. -/
def scalarValue (tag : Option String) (text : String) (style : ScalarStyle) :
    Except Problem Value := do
  let untagged : Except Problem Atom :=
    if style == .plain then Atom.ofPlain text else .ok (.string text)
  match tag with
  | none => return .atom (← untagged)
  | some written =>
    if (localTag? written).isSome then return withTag tag (.atom (← untagged))
    else return .atom (← Atom.ofTagged written text)

/-- Reading values with the number of aliases that may still be replaced. -/
abbrev ValueM := StateT Nat (Except Problem)

/-- A node, or the node that an alias stands for. -/
def Document.resolve (d : Document) : Node → ValueM Node
  | .alias number => do
    let left ← get
    if left = 0 then throw .tooManyAliases
    set (left - 1)
    match d.target? number with
    | some node => return node
    | none => throw .unknownAlias
  | node => return node

mutual

/-- The value of a node. `depth` is the number of collections that may still be opened. A node that
is `covered` by the tag of a mapping has no tag of its own, unless it is an alias of one that has. -/
def valueOf (d : Document) (covered : Bool) (depth : Nat) (node : Node) : ValueM Value := do
  let covered := covered && !(node matches .alias _)
  let effective (tag : Option String) := if covered then none else tag
  match ← d.resolve node, depth with
  | .alias _, _ => throw .unknownAlias
  | .scalar tag text style, _ => liftM (scalarValue (effective tag) text style)
  | .sequence .., 0 | .mapping .., 0 => throw .tooDeep
  | .sequence tag items, depth + 1 =>
    return withTag (effective tag) (.sequence (← valuesOf d depth items))
  | .mapping tag entries, depth + 1 =>
    let covered := covered || (tag.bind localTag?).isSome
    return withTag (effective tag) (.mapping (← entriesOf d covered depth [] entries))
  termination_by (depth, 0)

/-- The values of nodes. -/
def valuesOf (d : Document) (depth : Nat) (nodes : List Node) : ValueM (List Value) :=
  match nodes with
  | [] => return []
  | node :: rest => do
    let value ← valueOf d false depth node
    return value :: (← valuesOf d depth rest)
  termination_by (depth, nodes.length + 1)

/-- The entries of a mapping after the ones that were read. -/
def entriesOf (d : Document) (covered : Bool) (depth : Nat) (read : List (Value × Value))
    (nodes : List (Node × Node)) : ValueM (List (Value × Value)) :=
  match nodes with
  | [] => return read.reverse
  | (key, value) :: rest => do
    let key ← valueOf d covered depth key
    if read.any fun entry => entry.1.same key then throw .duplicateKey
    let value ← valueOf d false depth value
    entriesOf d covered depth ((key, value) :: read) rest
  termination_by (depth, nodes.length + 1)

end

/-- The value of a document. A text without a document is nothing. Each event makes room for a
hundred replaced aliases. -/
def Document.value (d : Document) : Except Problem Value :=
  match d.root with
  | none => .ok .null
  | some root => (valueOf d false maxDepth root).run' (100 * d.size)

/-- The value of a text. -/
def parse (text : String) : Except Problem Value := do
  let d ← Document.ofText text
  d.value

end Station.Yaml
