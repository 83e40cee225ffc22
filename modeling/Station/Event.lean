import Station.Entity

/-!
# Events

What can be raised on an entity. A drop carries no data. A targeted action is aimed at another
entity, and whoever acts on it marks it handled. A do-after event arrives when a timed action ends.
-/

namespace Station

/-- A carry of the entity has just ended. -/
structure CarryDropped where
  deriving DecidableEq, Repr, Inhabited

/-- An action that an entity aims at another one. -/
structure TargetedAction where
  /-- Who acts. -/
  performer : EntityUid
  /-- Whom it is aimed at. -/
  target : EntityUid
  /-- Whether a subscriber has acted on it. -/
  handled : Bool := false
  deriving DecidableEq, Repr, Inhabited

/-- The end of a timed action, completed or not. -/
structure DoAfterEvent where
  /-- Who acted. -/
  user : EntityUid
  /-- Whom it was aimed at, if anyone. -/
  target : Option EntityUid := none
  /-- Whether it was cut short. -/
  cancelled : Bool := false
  /-- Whether a subscriber has acted on it. -/
  handled : Bool := false
  deriving DecidableEq, Repr, Inhabited

/-- The same event, cut short. -/
def DoAfterEvent.cancel (event : DoAfterEvent) : DoAfterEvent := { event with cancelled := true }

/-- The types of event that content subscribes to. -/
inductive Topic where
  /-- A carry ended. -/
  | carryDropped
  /-- Somebody wants to lick a wound. -/
  | woundLicking
  /-- Licking a wound came to an end. -/
  | woundLickingDoAfter
  deriving DecidableEq, Repr, Inhabited

/-- What an event of each type carries. -/
abbrev Topic.Payload : Topic → Type
  | .carryDropped => CarryDropped
  | .woundLicking => TargetedAction
  | .woundLickingDoAfter => DoAfterEvent

end Station
