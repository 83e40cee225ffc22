import Station.Catalogue.Directory
import Station.Config
import Station.Event.Bus
import Station.Failure
import Station.Felinid
import Station.JoinQueue.Gate
import Station.Mind.Roster
import Station.Sound

/-!
# The server

A server is built from a catalogue: the last document of an id decides what the id stands for. From
then on it is a value that operations change. An operation that fails keeps what it did before it
failed, so an `Effect` always comes with the server as it was left, and with the entities whose
carries it ended.

Ids of entities count up from one and are never given out twice.
-/

namespace Station

/-- A running server. -/
structure Server where
  /-- Its settings. -/
  config : ServerConfig
  /-- The join queue. -/
  gate : Gate
  /-- The felinid component that entities of a prototype get. -/
  templates : Table PrototypeId Felinid
  /-- The mind filters. -/
  filters : Table PrototypeId MindFilter
  /-- The sound collections. -/
  sounds : SoundRegistry
  /-- The felinid components. -/
  felinids : ComponentTable Felinid := {}
  /-- Who carries whom. -/
  carries : CarryTables (ComponentTable Carrying) (ComponentTable BeingCarried) := ⟨{}, {}⟩
  /-- The minds. -/
  minds : MindRoster := {}
  /-- The id of the next entity. -/
  nextUid : EntityUid := ⟨1⟩
  deriving Inhabited

/-- What an operation on a server comes to. -/
structure Effect (α : Type) where
  /-- The answer, or why there is none. -/
  answer : Except Failure α
  /-- The server as it was left. -/
  server : Server
  /-- The entities whose carries ended, in order. -/
  dropped : List EntityUid := []

namespace Effect

variable {α β : Type}

/-- Goes on with another operation unless the first one failed. -/
def andThen (e : Effect α) (next : α → Server → Effect β) : Effect β :=
  match e.answer with
  | .error failure => ⟨.error failure, e.server, e.dropped⟩
  | .ok a =>
    let later := next a e.server
    { later with dropped := e.dropped ++ later.dropped }

end Effect

namespace Server

/-! ## Building a server -/

/-- The felinid components that the entities of a catalogue get. -/
def templatesOf (c : Catalogue) : Table PrototypeId Felinid :=
  .ofList (c.entities.filterMap fun entity =>
    entity.component?.map fun component => (entity.id, component))

/-- The mind filters of a catalogue. -/
def filtersOf (c : Catalogue) : Table PrototypeId MindFilter :=
  .ofList (c.mindFilters.map fun p => (p.id, p.filter))

/-- The sound collections of a catalogue. -/
def soundsOf (c : Catalogue) : SoundRegistry :=
  c.soundCollections.foldl (fun registry p => registry.register p.id p.files) {}

/-- A new server for a catalogue. The first phase of its join queue has run, which cannot fail on a
new queue. -/
def ofCatalogue (config : ServerConfig) (c : Catalogue) : Server where
  config := config
  gate := (Gate.runInit { enabled := config.joinQueue.enabled }).2
  templates := templatesOf c
  filters := filtersOf c
  sounds := soundsOf c

/-- A new server for the documents of the configured directory. -/
def bootstrap (tree : FileTree) (config : ServerConfig) : Except Failure Server :=
  match ({} : Catalogue).addDirectory tree config.prototypesDir with
  | .ok c => .ok (ofCatalogue config c)
  | .error error => .error (.prototypes config.prototypesDir error)

/-- Runs the second phase of the join queue, once everything else is in place. -/
def start (s : Server) : Effect Unit :=
  match s.gate.runPostInit with
  | (.ok (), gate) => ⟨.ok (), { s with gate }, []⟩
  | (.error error, gate) => ⟨.error (.joinQueue error), { s with gate }, []⟩

/-! ## Entities -/

/-- Makes an entity of a prototype and attaches the component that it gets. -/
def spawn (s : Server) (prototype : PrototypeId) : Effect EntityUid :=
  let uid := s.nextUid
  let s := { s with nextUid := uid.next }
  match s.templates.get? prototype with
  | none => ⟨.ok uid, s, []⟩
  | some template =>
    match s.felinids.insert uid template with
    | .ok (_, felinids) => ⟨.ok uid, { s with felinids }, []⟩
    | .error error => ⟨.error (.repository error), s, []⟩

/-- Lets an entity pick up another one. -/
def pickUp (s : Server) (carrier carried : EntityUid) : Effect Unit :=
  match s.carries.begin? carrier carried with
  | (.ok (), carries) => ⟨.ok (), { s with carries }, []⟩
  | (.error error, carries) => ⟨.error (.carry error), { s with carries }, []⟩

/-- Ends the carry of an entity, and says whether there was one. -/
def drop (s : Server) (carried : EntityUid) : Effect Bool :=
  let release := s.carries.release carried
  { answer :=
      match release.answer with
      | .ok released => .ok released
      | .error error => .error (.repository error)
    server := { s with carries := release.tables }
    dropped := release.drops.map Drop.uid }

/-- Ends the carry of what an entity carries, and says whether there was one. -/
def dropLoad (s : Server) (carrier : EntityUid) : Effect Bool :=
  match s.carries.carrying.get carrier with
  | .error error => ⟨.error (.repository error), s, []⟩
  | .ok none => ⟨.ok false, s, []⟩
  | .ok (some side) => s.drop side.carried

/-- Drops every reference that felinid components hold to an entity. -/
def forgetAll (uid : EntityUid) (felinids : ComponentTable Felinid) (others : List EntityUid) :
    Except StoreError (ComponentTable Felinid) :=
  others.foldlM
    (fun table other => do
      let (_, table) ← table.update other fun felinid => ((), felinid.forget uid)
      return table)
    felinids

/-- Removes the felinid component of an entity and every reference that others hold to it. -/
def removeFelinid (uid : EntityUid) (felinids : ComponentTable Felinid) :
    Except StoreError (ComponentTable Felinid) := do
  let (_, felinids) ← felinids.remove uid
  forgetAll uid felinids (← felinids.entities)

/-- Takes the felinid side of an entity away. -/
def eraseFelinid (s : Server) (uid : EntityUid) : Effect Unit :=
  match removeFelinid uid s.felinids with
  | .ok felinids => ⟨.ok (), { s with felinids }, []⟩
  | .error error => ⟨.error (.repository error), s, []⟩

/-- Removes an entity: both carries that it has part in end, and nothing refers to it any more. -/
def despawn (s : Server) (uid : EntityUid) : Effect Unit :=
  (s.drop uid).andThen fun _ s =>
    (s.dropLoad uid).andThen fun _ s =>
      s.eraseFelinid uid

/-! ## Minds and sounds -/

/-- The minds that a filter allows, in the given order. -/
def eligibleMinds (s : Server) (filter : PrototypeId) (minds : List MindId) :
    Except Failure (List MindId) :=
  match s.filters.get? filter with
  | none => .error (.unknownMindFilter filter)
  | some f => .ok (retainAllowed [f] s.minds.holds minds)

/-- The file to play for a sound. -/
def resolveSound (s : Server) (sound : SoundSpecifier) : Option String × Server :=
  let (file, sounds) := s.sounds.resolve sound
  (file, { s with sounds })

/-- The file to play while a felinid eats. -/
def eat (s : Server) (uid : EntityUid) : Except StoreError (Option String × Server) := do
  let felinid ← ComponentStore.require s.felinids uid
  return s.resolveSound felinid.eatSound

end Server

/-- Raises a drop on each entity whose carry ended, in order. -/
def EventBus.raiseDrops {ω : Type} (bus : EventBus Topic.Payload ω) (dropped : List EntityUid)
    (world : ω) : ω :=
  dropped.foldl (fun world uid => (bus.raise .carryDropped uid {} world).2) world

end Station
