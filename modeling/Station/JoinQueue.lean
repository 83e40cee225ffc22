/-!
# The join queue

The join queue admits players. Startup runs it through two phases, each of them once and in order:
it is created, initialized and post-initialized. `JoinQueueError` says what goes against that order.
-/

namespace Station

/-- How far startup has brought the join queue. -/
inductive JoinQueuePhase where
  /-- Nothing has run yet. -/
  | created
  /-- The first phase is done. -/
  | initialized
  /-- Both phases are done. -/
  | postInitialized
  deriving DecidableEq, Repr, Inhabited

namespace JoinQueuePhase

/-- The name of a phase. -/
def name : JoinQueuePhase → String
  | .created => "created"
  | .initialized => "initialized"
  | .postInitialized => "post-initialized"

/-- The place of a phase in their order. -/
def rank : JoinQueuePhase → Nat
  | .created => 0
  | .initialized => 1
  | .postInitialized => 2

end JoinQueuePhase

/-- What goes against the order of the phases. -/
inductive JoinQueueError where
  /-- The first phase was started before. -/
  | alreadyInitialized
  /-- The second phase was started before the first was done. -/
  | notInitialized
  /-- The second phase was started before. -/
  | alreadyPostInitialized
  deriving DecidableEq, Repr, Inhabited

/-- The text of a join-queue error. -/
def JoinQueueError.message : JoinQueueError → String
  | .alreadyInitialized => "Join queue is already initialized"
  | .notInitialized => "Join queue post-initialization requires initialization first"
  | .alreadyPostInitialized => "Join queue is already post-initialized"

/-- A view of the join queue. -/
structure JoinQueueStatus where
  /-- Whether it gates admissions at all. -/
  enabled : Bool
  /-- How many players wait. -/
  queued : UInt64
  /-- How many players are in. -/
  connected : UInt64
  deriving DecidableEq, Repr, Inhabited

end Station
