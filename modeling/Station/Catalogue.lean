import Station.Content
import Station.Prototype.Decode

/-!
# The catalogue

The catalogue holds every document that was read, with the file it came from, in the order in which
they were read, and the errors that were met. A file adds all of its documents or none of them. A
document that does not fit its type is kept by its type and its id.
-/

namespace Station

/-- A document with the file it came from. -/
structure LoadedPrototype where
  /-- The document. -/
  prototype : Prototype
  /-- The file. -/
  path : Path
  deriving DecidableEq, Repr, Inhabited

/-- The documents that were read and the errors that were met. -/
structure Catalogue where
  /-- The documents, in the order in which they were read. -/
  prototypes : List LoadedPrototype := []
  /-- The errors that were recorded, in order. -/
  errors : List ContentError := []
  deriving DecidableEq, Repr, Inhabited

/-- The documents in the root of a file: a list, or the list under `prototypes`; nothing holds none.
-/
def documentsOf? : Yaml.Value → Option (List Yaml.Value)
  | .atom .null => some []
  | .sequence documents => some documents
  | .mapping entries =>
    match Yaml.Value.lookup "prototypes" entries with
    | some (.sequence documents) => some documents
    | _ => none
  | _ => none

/-- Reads a document under the type that it names, or keeps its type and its id. A document that
names no type is not read. -/
def Prototype.ofDocument? (document : Yaml.Value) : Option Prototype := do
  let kind ← (← document.get? "type").string?
  return (ofValue? kind document).getD (untyped kind document)

/-- Reads documents, the first of which has the number `index`. -/
def readDocuments (path : Path) (index : Nat) :
    List Yaml.Value → Except ContentError (List LoadedPrototype)
  | [] => .ok []
  | document :: rest =>
    match Prototype.ofDocument? document with
    | none => .error (.missingType path index)
    | some prototype =>
      (readDocuments path (index + 1) rest).map fun later => ⟨prototype, path⟩ :: later

namespace Catalogue

/-- Records an error. -/
def record (c : Catalogue) (error : ContentError) : Catalogue :=
  { c with errors := c.errors ++ [error] }

/-- Adds the documents in the root of a file. -/
def addValue (c : Catalogue) (root : Yaml.Value) (path : Path) : Except ContentError Catalogue :=
  match documentsOf? root with
  | none => .error (.invalidShape path)
  | some documents =>
    (readDocuments path 0 documents).map fun loaded =>
      { c with prototypes := c.prototypes ++ loaded }

/-- Adds the documents of a text, which was read from a path. -/
def addText (c : Catalogue) (text : String) (path : Path) : Except ContentError Catalogue :=
  match Yaml.parse text with
  | .error problem => .error (.yaml path problem)
  | .ok root => c.addValue root path

/-! ## Queries -/

/-- The jobs, in the order in which they were read. -/
def jobs (c : Catalogue) : List JobPrototype :=
  c.prototypes.filterMap fun loaded => loaded.prototype.job?

/-- The sound collections, in the order in which they were read. -/
def soundCollections (c : Catalogue) : List SoundCollectionPrototype :=
  c.prototypes.filterMap fun loaded => loaded.prototype.soundCollection?

/-- The mind filters, in the order in which they were read. -/
def mindFilters (c : Catalogue) : List MindFilterPrototype :=
  c.prototypes.filterMap fun loaded => loaded.prototype.mindFilter?

/-- The entities, in the order in which they were read. -/
def entities (c : Catalogue) : List EntityPrototype :=
  c.prototypes.filterMap fun loaded => loaded.prototype.entity?

/-- The felinid component of the first entity with an id that has one. -/
def felinidFor (c : Catalogue) (id : PrototypeId) : Option Felinid :=
  c.entities.findSome? fun entity => if entity.id = id then entity.component? else none

end Catalogue

end Station
