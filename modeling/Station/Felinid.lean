import Station.Sound

/-!
# Felinids

The component of an entity that eats mice and coughs up hairballs. Three of its fields may refer to
other entities; `Felinid.forget` drops every such reference to one entity.
-/

namespace Station

/-- The felinid component. -/
structure Felinid where
  /-- What is coughed up. -/
  hairballPrototype : PrototypeId := "Hairball"
  /-- The action that coughs it up. -/
  hairballAction : PrototypeId := "ActionHairball"
  /-- The live entity of that action, once it is granted. -/
  actionEntity : Option EntityUid := none
  /-- The entity that may be eaten next. -/
  potentialTarget : Option EntityUid := none
  /-- The mouse that is being eaten. -/
  eatMouse : Option EntityUid := none
  /-- What is heard while eating. -/
  eatSound : SoundSpecifier := .collection "eating"
  deriving DecidableEq, Repr, Inhabited

namespace Felinid

/-- Stores the entity of the granted action and returns the one before it. -/
def bindAction (action : EntityUid) (f : Felinid) : Option EntityUid × Felinid :=
  (f.actionEntity, { f with actionEntity := some action })

/-- Takes the entity of the granted action out of the component. -/
def takeAction (f : Felinid) : Option EntityUid × Felinid :=
  (f.actionEntity, { f with actionEntity := none })

/-- Gives up whatever was to be eaten. -/
def clearTargets (f : Felinid) : Felinid :=
  { f with potentialTarget := none, eatMouse := none }

/-- Replaces the entity that may be eaten next and returns the one before it. -/
def setTarget (target : Option EntityUid) (f : Felinid) : Option EntityUid × Felinid :=
  (f.potentialTarget, { f with potentialTarget := target })

/-- Replaces the mouse that is being eaten and returns the one before it. -/
def setMouse (mouse : Option EntityUid) (f : Felinid) : Option EntityUid × Felinid :=
  (f.eatMouse, { f with eatMouse := mouse })

/-- A reference with one entity taken out. -/
def without (uid : EntityUid) (reference : Option EntityUid) : Option EntityUid :=
  if reference = some uid then none else reference

/-- Drops every reference to one entity. -/
def forget (uid : EntityUid) (f : Felinid) : Felinid :=
  { f with
    potentialTarget := without uid f.potentialTarget
    eatMouse := without uid f.eatMouse
    actionEntity := without uid f.actionEntity }

end Felinid

end Station
