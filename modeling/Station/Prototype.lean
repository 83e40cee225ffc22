import Station.Felinid
import Station.Mind.Filter

/-!
# Prototypes

Content comes as documents, each of a kind. The kinds that this library knows have a shape of their
own; a document of another kind, or one that does not fit its shape, keeps its kind and its id.

`Prototype.references` lists the ids of other prototypes that a document points at.
-/

namespace Station

/-- A job. -/
structure JobPrototype where
  /-- Its id. -/
  id : JobId
  /-- The name that players see. -/
  name : Option String := none
  deriving DecidableEq, Repr, Inhabited

/-- A sound collection. -/
structure SoundCollectionPrototype where
  /-- Its id. -/
  id : SoundCollectionId
  /-- Its files, in turn. -/
  files : List String := []
  deriving DecidableEq, Repr, Inhabited

/-- A mind filter. -/
structure MindFilterPrototype where
  /-- Its id. -/
  id : PrototypeId
  /-- The jobs of which a mind has to hold one. -/
  blacklist : List JobId := []
  deriving DecidableEq, Repr, Inhabited

/-- The filter that a prototype describes. -/
def MindFilterPrototype.filter (p : MindFilterPrototype) : MindFilter := ⟨p.blacklist⟩

/-- The fields of a felinid component that content sets; the others keep their defaults. -/
structure FelinidOverrides where
  /-- What is coughed up. -/
  hairballPrototype : Option PrototypeId := none
  /-- The action that coughs it up. -/
  hairballAction : Option PrototypeId := none
  /-- What is heard while eating. -/
  eatSound : Option SoundSpecifier := none
  deriving DecidableEq, Repr, Inhabited

/-- The component that overrides describe. -/
def FelinidOverrides.component (o : FelinidOverrides) : Felinid :=
  let f : Felinid := {}
  { f with
    hairballPrototype := o.hairballPrototype.getD f.hairballPrototype
    hairballAction := o.hairballAction.getD f.hairballAction
    eatSound := o.eatSound.getD f.eatSound }

/-- The ids that overrides point at. A sound counts if it is a collection. -/
def FelinidOverrides.references (o : FelinidOverrides) : List PrototypeId :=
  o.hairballPrototype.toList ++ o.hairballAction.toList ++
    (o.eatSound.bind SoundSpecifier.collection?).toList

/-- A component as an entity lists it. -/
inductive ComponentEntry where
  /-- A felinid component. -/
  | felinid (overrides : FelinidOverrides)
  /-- A component of a type that this library does not know. -/
  | unknown
  deriving DecidableEq, Repr, Inhabited

/-- The overrides of an entry for a felinid component. -/
def ComponentEntry.felinid? : ComponentEntry → Option FelinidOverrides
  | .felinid overrides => some overrides
  | .unknown => none

/-- The parents of an entity, as they are written. -/
inductive Parents where
  /-- A single id. -/
  | one (id : PrototypeId)
  /-- A list of ids. -/
  | many (ids : List PrototypeId)
  deriving DecidableEq, Repr, Inhabited

/-- The ids of parents. -/
def Parents.ids : Parents → List PrototypeId
  | .one id => [id]
  | .many ids => ids

/-- An entity. -/
structure EntityPrototype where
  /-- Its id. -/
  id : PrototypeId
  /-- The name that players see. -/
  name : Option String := none
  /-- The entities that it derives from. -/
  parents : Option Parents := none
  /-- Its components. -/
  components : List ComponentEntry := []
  deriving DecidableEq, Repr, Inhabited

/-- The first entry for a felinid component. -/
def EntityPrototype.felinid? (e : EntityPrototype) : Option FelinidOverrides :=
  e.components.findSome? ComponentEntry.felinid?

/-- The component that an entity of this prototype gets, if it gets one. -/
def EntityPrototype.component? (e : EntityPrototype) : Option Felinid :=
  e.felinid?.map FelinidOverrides.component

/-- A document. -/
inductive Prototype where
  /-- A job. -/
  | job (p : JobPrototype)
  /-- A sound collection. -/
  | soundCollection (p : SoundCollectionPrototype)
  /-- An entity. -/
  | entity (p : EntityPrototype)
  /-- A mind filter. -/
  | mindFilter (p : MindFilterPrototype)
  /-- A document of which only its kind and its id are known. -/
  | other (kind : String) (id : Option PrototypeId)
  deriving DecidableEq, Repr, Inhabited

namespace Prototype

/-- The kind of a document. -/
def kind : Prototype → String
  | .job _ => "job"
  | .soundCollection _ => "soundCollection"
  | .entity _ => "entity"
  | .mindFilter _ => "mindFilter"
  | .other kind _ => kind

/-- The id of a document. -/
def id? : Prototype → Option PrototypeId
  | .job p => some p.id
  | .soundCollection p => some p.id
  | .entity p => some p.id
  | .mindFilter p => some p.id
  | .other _ id => id

/-- The ids of other prototypes that a document points at, in order. -/
def references : Prototype → List PrototypeId
  | .entity p =>
    (p.parents.elim [] Parents.ids) ++ (p.felinid?.elim [] FelinidOverrides.references)
  | .mindFilter p => p.blacklist
  | .job _ | .soundCollection _ | .other .. => []

/-- The job that a document describes. -/
def job? : Prototype → Option JobPrototype
  | .job p => some p
  | _ => none

/-- The sound collection that a document describes. -/
def soundCollection? : Prototype → Option SoundCollectionPrototype
  | .soundCollection p => some p
  | _ => none

/-- The entity that a document describes. -/
def entity? : Prototype → Option EntityPrototype
  | .entity p => some p
  | _ => none

/-- The mind filter that a document describes. -/
def mindFilter? : Prototype → Option MindFilterPrototype
  | .mindFilter p => some p
  | _ => none

end Prototype

end Station
