import Station.Yaml.Event
import Station.Yaml.Token.Scan

/-!
# Nodes

A document as a tree of nodes. Aliases stay in the tree as numbers; the document says which node
each number stands for.

An anchor gets the number of different names that were used before it. A name that is used a second
time keeps the count as it is, so the next new name gets the same number and takes its aliases over.
-/

namespace Station.Yaml

/-- A node of a document. -/
inductive Node where
  /-- Another node, by the number of its anchor. -/
  | alias (number : Nat)
  /-- A scalar. -/
  | scalar (tag : Option String) (text : String) (style : ScalarStyle)
  /-- A sequence. -/
  | sequence (tag : Option String) (items : List Node)
  /-- A mapping. -/
  | mapping (tag : Option String) (entries : List (Node × Node))
  deriving Inhabited, Repr

/-- A document. -/
structure Document where
  /-- The root, unless the text holds no document. -/
  root : Option Node
  /-- The nodes that aliases stand for, by number. -/
  anchored : List (Nat × Node) := []
  /-- The number of events of the document. -/
  size : Nat := 0
  deriving Inhabited

/-- A collection that is still open, or the place of the root. -/
structure OpenNode where
  /-- Which anchored node it is, if it is one. -/
  serial : Option Nat := none
  /-- Its tag. -/
  tag : Option String := none
  /-- The nodes in it, last first. -/
  children : List Node := []
  deriving Inhabited

/-- A document under construction. -/
structure DocumentBuilder where
  /-- The open collections, innermost first. -/
  open_ : List OpenNode := []
  /-- The root, once it is complete. -/
  root : Option Node := none
  /-- The numbers of the anchor names. -/
  numbers : List (String × Nat) := []
  /-- The anchored nodes that started, by number, last first. -/
  started : List (Nat × Nat) := []
  /-- The anchored nodes that are complete, by the order in which they started. -/
  complete : List (Nat × Node) := []
  deriving Inhabited

namespace DocumentBuilder

/-- Gives an anchored node its number when it starts. -/
def start (b : DocumentBuilder) : Option String → Option Nat × DocumentBuilder
  | none => (none, b)
  | some name =>
    let number := b.numbers.length
    let serial := b.started.length
    (some serial,
      { b with
        numbers := (name, number) :: b.numbers.filter (·.1 != name)
        started := (number, serial) :: b.started })

/-- Puts a complete node into the innermost open collection. -/
def add (b : DocumentBuilder) (serial : Option Nat) (node : Node) : DocumentBuilder :=
  let b :=
    match serial with
    | some serial => { b with complete := (serial, node) :: b.complete }
    | none => b
  match b.open_ with
  | [] => { b with root := some node }
  | top :: outer => { b with open_ := { top with children := node :: top.children } :: outer }

/-- Nodes in pairs: a key and its value. -/
def pairs : List Node → List (Node × Node)
  | key :: value :: rest => (key, value) :: pairs rest
  | _ => []

/-- Opens a collection. -/
def openNode (b : DocumentBuilder) (properties : NodeProperties) : DocumentBuilder :=
  let (serial, b) := b.start properties.anchor
  { b with open_ := { serial, tag := properties.tag } :: b.open_ }

/-- Closes the innermost collection. -/
def closeNode (b : DocumentBuilder) (make : Option String → List Node → Node) : DocumentBuilder :=
  match b.open_ with
  | [] => b
  | top :: outer => { b with open_ := outer }.add top.serial (make top.tag top.children.reverse)

/-- Takes one event in. -/
def event (b : DocumentBuilder) : Event → Except Problem DocumentBuilder
  | .alias name =>
    match b.numbers.find? (·.1 == name) with
    | some (_, number) => .ok (b.add none (.alias number))
    | none => .error .unknownAlias
  | .scalar properties text style =>
    let (serial, b) := b.start properties.anchor
    .ok (b.add serial (.scalar properties.tag text style))
  | .sequenceStart properties | .mappingStart properties => .ok (b.openNode properties)
  | .sequenceEnd => .ok (b.closeNode .sequence)
  | .mappingEnd => .ok (b.closeNode fun tag children => .mapping tag (pairs children))

end DocumentBuilder

/-- The document that events spell out. -/
def Document.ofEvents (events : List Event) : Except Problem Document := do
  let b ← events.foldlM DocumentBuilder.event {}
  let anchored := b.started.filterMap fun (number, serial) =>
    (b.complete.find? (·.1 == serial)).map fun (_, node) => (number, node)
  return { root := b.root, anchored, size := events.length }

/-- The node that the number of an anchor stands for. -/
def Document.target? (d : Document) (number : Nat) : Option Node :=
  (d.anchored.find? (·.1 == number)).map (·.2)

/-- Reads the only document of a text. -/
def Document.ofText (text : String) : Except Problem Document := do
  let tokens ← tokensOf text
  let events ← eventsOf tokens
  Document.ofEvents events

end Station.Yaml
