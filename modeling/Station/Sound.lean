import Station.Entity
import Station.Table

/-!
# Sounds

A sound is named either by the path of its file or by a collection of files that takes turns. A
`SoundRegistry` holds the collections and the turn of each. The turn counts modulo `2 ^ 64`; of a
collection of `n` files the count `k` names file `k % n`.
-/

namespace Station

/-- How content names a sound. -/
inductive SoundSpecifier where
  /-- The path of one file. -/
  | path (path : String)
  /-- A collection, whose files take turns. -/
  | collection (id : SoundCollectionId)
  deriving DecidableEq, Repr, Inhabited

/-- The collection that a specifier names, if it names one. -/
def SoundSpecifier.collection? : SoundSpecifier → Option SoundCollectionId
  | .path _ => none
  | .collection id => some id

/-- The files of one collection and the number of files it has handed out so far. -/
structure SoundCollection where
  /-- The files, in turn. -/
  files : List String
  /-- How many files were handed out, modulo `2 ^ 64`. -/
  turn : UInt64 := 0
  deriving DecidableEq, Repr, Inhabited

/-- The file whose turn it is, and the collection with the turn passed on. An empty collection has
no file and keeps its turn. -/
def SoundCollection.take (c : SoundCollection) : Option (String × SoundCollection) :=
  c.files[c.turn.toNat % c.files.length]?.map fun file => (file, { c with turn := c.turn + 1 })

/-- The registered sound collections. -/
structure SoundRegistry where
  /-- The collections, by id. -/
  collections : Table SoundCollectionId SoundCollection := .empty
  deriving Inhabited

namespace SoundRegistry

/-- Registers a collection; an older one of the same id is gone, and with it its turn. -/
def register (r : SoundRegistry) (id : SoundCollectionId) (files : List String) : SoundRegistry :=
  ⟨r.collections.insert id { files }⟩

/-- Whether a collection is registered. -/
def contains (r : SoundRegistry) (id : SoundCollectionId) : Bool := r.collections.contains id

/-- The number of registered collections. -/
def size (r : SoundRegistry) : Nat := r.collections.size

/-- Whether nothing is registered. -/
def isEmpty (r : SoundRegistry) : Bool := r.size == 0

/-- The file to play for a specifier. A path names itself; a collection hands out its next file. -/
def resolve (r : SoundRegistry) : SoundSpecifier → Option String × SoundRegistry
  | .path path => (some path, r)
  | .collection id =>
    match (r.collections.get? id).bind SoundCollection.take with
    | some (file, rest) => (some file, ⟨r.collections.insert id rest⟩)
    | none => (none, r)

end SoundRegistry

end Station
