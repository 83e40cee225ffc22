import Station.JoinQueue

/-!
# The join-queue gate

The gate is the join queue of a running server. Several callers use it at once: a phase is claimed
by one atomic exchange and published by a later store, and each count is stored and loaded on its
own. The atomic steps are definitions of their own (`claimInit`, `publishInit`, `storeQueued`, …)
and each whole call is made of them, so that a run may interleave the steps of several callers.
-/

namespace Station

/-- Where the gate stands, with the moments between claiming a phase and publishing it. -/
inductive GateStage where
  /-- Nothing has run yet. -/
  | created
  /-- The first phase is claimed. -/
  | initializing
  /-- The first phase is published. -/
  | initialized
  /-- The second phase is claimed. -/
  | postInitializing
  /-- The second phase is published. -/
  | postInitialized
  deriving DecidableEq, Repr, Inhabited

/-- The phase that a stage reports; a phase that is still running reports the one before it. -/
def GateStage.phase : GateStage → JoinQueuePhase
  | .created | .initializing => .created
  | .initialized | .postInitializing => .initialized
  | .postInitialized => .postInitialized

/-- The gate. -/
structure Gate where
  /-- Whether it gates admissions at all. -/
  enabled : Bool
  /-- How many players wait. -/
  queued : UInt64 := 0
  /-- How many players are in. -/
  connected : UInt64 := 0
  /-- Where it stands. -/
  stage : GateStage := .created
  deriving DecidableEq, Repr, Inhabited

namespace Gate

/-- The phase that the gate reports. -/
def phase (g : Gate) : JoinQueuePhase := g.stage.phase

/-! ## Atomic steps -/

/-- Claims the first phase, which succeeds for the first caller only. -/
def claimInit (g : Gate) : Except JoinQueueError Unit × Gate :=
  if g.stage = .created then (.ok (), { g with stage := .initializing })
  else (.error .alreadyInitialized, g)

/-- Publishes the first phase. -/
def publishInit (g : Gate) : Gate := { g with stage := .initialized }

/-- Claims the second phase, which succeeds for the first caller after the first phase only. -/
def claimPostInit (g : Gate) : Except JoinQueueError Unit × Gate :=
  match g.stage with
  | .initialized => (.ok (), { g with stage := .postInitializing })
  | .created | .initializing => (.error .notInitialized, g)
  | .postInitializing | .postInitialized => (.error .alreadyPostInitialized, g)

/-- Publishes the second phase. -/
def publishPostInit (g : Gate) : Gate := { g with stage := .postInitialized }

/-- Stores the number of waiting players. -/
def storeQueued (queued : UInt64) (g : Gate) : Gate := { g with queued }

/-- Stores the number of players that are in. -/
def storeConnected (connected : UInt64) (g : Gate) : Gate := { g with connected }

/-! ## Whole calls -/

/-- Runs the first phase. -/
def runInit (g : Gate) : Except JoinQueueError Unit × Gate :=
  match g.claimInit with
  | (.ok (), g) => (.ok (), g.publishInit)
  | (.error e, g) => (.error e, g)

/-- Runs the second phase. -/
def runPostInit (g : Gate) : Except JoinQueueError Unit × Gate :=
  match g.claimPostInit with
  | (.ok (), g) => (.ok (), g.publishPostInit)
  | (.error e, g) => (.error e, g)

/-- Publishes the latest counts, first of the waiting players and then of those that are in. -/
def reportCounts (g : Gate) (queued connected : UInt64) : Gate :=
  (g.storeQueued queued).storeConnected connected

/-- The view of the gate, read one property after the other. -/
def status (g : Gate) : JoinQueueStatus := ⟨g.enabled, g.queued, g.connected⟩

end Gate

end Station
