import Station.DoAfter

/-!
# Wound licking

The action to lick a wound becomes a do-after. The action is marked handled once the scheduler has
accepted the request, and not before, so that a rejected one can be tried again.
-/

namespace Station

/-- The request that an action to lick a wound makes. -/
def TargetedAction.lickRequest (action : TargetedAction) (delay : Delay) :
    DoAfterRequest DoAfterEvent :=
  let request : DoAfterRequest DoAfterEvent :=
    { user := action.performer, delay
      event := { user := action.performer, target := some action.target } }
  ((request.withTarget action.target).breakingOnMove).breakingOnDamage

/-- Starts licking a wound. An action that was handled already, or whose request is rejected, stays
as it is and starts nothing. -/
def startWoundLicking {σ : Type} [DoAfterScheduler σ DoAfterEvent] (action : TargetedAction)
    (delay : Delay) (scheduler : σ) : Option DoAfterId × TargetedAction × σ :=
  if action.handled then (none, action, scheduler)
  else
    match DoAfterScheduler.tryStart scheduler (action.lickRequest delay) with
    | (none, scheduler) => (none, action, scheduler)
    | (some id, scheduler) => (some id, { action with handled := true }, scheduler)

end Station
