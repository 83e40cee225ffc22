import Station.Event

/-!
# Do-afters

A do-after is an action that takes time and may be interrupted. Content asks a scheduler to start
one and later gets the attached event back with the outcome applied. `DoAfterScheduler` says what
any scheduler answers, and `DoAfterAgenda` is a scheduler that only keeps the list of what is
running.
-/

namespace Station

/-- Names a running do-after. -/
structure DoAfterId where
  /-- The number itself. -/
  raw : UInt64
  deriving DecidableEq, Repr, Inhabited

/-- How a do-after ended. -/
inductive DoAfterOutcome where
  /-- It took its time to the end. -/
  | completed
  /-- It was cut short. -/
  | cancelled
  deriving DecidableEq, Repr, Inhabited

/-- Applies an outcome to the event that is raised at the end. -/
def DoAfterOutcome.apply (outcome : DoAfterOutcome) (event : DoAfterEvent) : DoAfterEvent :=
  { event with cancelled := outcome == .cancelled }

/-- A span of time. -/
structure Delay where
  /-- Whole seconds. -/
  seconds : UInt64
  /-- Nanoseconds beyond them, less than a billion. -/
  nanoseconds : UInt32
  deriving DecidableEq, Repr, Inhabited

/-- The span of some seconds and nanoseconds. A billion nanoseconds make a second. -/
def Delay.ofParts (seconds : UInt64) (nanoseconds : UInt32) : Delay :=
  ⟨seconds + (nanoseconds / 1000000000).toUInt64, nanoseconds % 1000000000⟩

/-- A request to start a do-after whose event has type `ε`. -/
structure DoAfterRequest (ε : Type) where
  /-- Who acts. -/
  user : EntityUid
  /-- Whom it is aimed at. -/
  target : Option EntityUid := none
  /-- The item that is used. -/
  used : Option EntityUid := none
  /-- How long it takes. -/
  delay : Delay
  /-- What is raised on the user at the end. -/
  event : ε
  /-- Whether moving cuts it short. -/
  breakOnMove : Bool := false
  /-- Whether damage cuts it short. -/
  breakOnDamage : Bool := false
  /-- Whether a free hand is needed. -/
  needsHand : Bool := false
  deriving DecidableEq, Repr, Inhabited

namespace DoAfterRequest

variable {ε : Type}

/-- Aims the request at an entity. -/
def withTarget (r : DoAfterRequest ε) (target : EntityUid) : DoAfterRequest ε :=
  { r with target := some target }

/-- Names the item that is used. -/
def withUsed (r : DoAfterRequest ε) (used : EntityUid) : DoAfterRequest ε :=
  { r with used := some used }

/-- Lets moving cut it short. -/
def breakingOnMove (r : DoAfterRequest ε) : DoAfterRequest ε := { r with breakOnMove := true }

/-- Lets damage cut it short. -/
def breakingOnDamage (r : DoAfterRequest ε) : DoAfterRequest ε := { r with breakOnDamage := true }

/-- Asks for a free hand. -/
def needingHand (r : DoAfterRequest ε) : DoAfterRequest ε := { r with needsHand := true }

end DoAfterRequest

/-- Something that starts and cancels do-afters; it may reject a request. -/
class DoAfterScheduler (σ : Type) (ε : outParam Type) where
  /-- Starts a do-after, or rejects the request. -/
  tryStart : σ → DoAfterRequest ε → Option DoAfterId × σ
  /-- Cancels a do-after, and says whether it was running. -/
  cancel : σ → DoAfterId → Bool × σ

/-- A list of running do-afters. A request is rejected while rejecting is switched on, and while a
do-after of the same user and target runs. Ids count up from one. -/
structure DoAfterAgenda (ε : Type) where
  /-- What runs, oldest first. -/
  running : List (DoAfterId × DoAfterRequest ε) := []
  /-- The last id that was given out. -/
  lastId : UInt64 := 0
  /-- Whether every request is rejected. -/
  rejecting : Bool := false
  deriving Inhabited

namespace DoAfterAgenda

variable {ε : Type}

/-- Starts a do-after unless the request is rejected. -/
def tryStart (a : DoAfterAgenda ε) (request : DoAfterRequest ε) :
    Option DoAfterId × DoAfterAgenda ε :=
  let busy := a.running.any fun (_, other) =>
    other.user == request.user && other.target == request.target
  if a.rejecting || busy then (none, a)
  else
    let id : DoAfterId := ⟨a.lastId + 1⟩
    (some id, { a with running := a.running ++ [(id, request)], lastId := id.raw })

/-- Takes a do-after off the list. -/
def take (a : DoAfterAgenda ε) (id : DoAfterId) :
    Option (DoAfterRequest ε) × DoAfterAgenda ε :=
  ((a.running.find? (·.1 == id)).map (·.2), { a with running := a.running.filter (·.1 != id) })

/-- Cancels a do-after, and says whether it was running. -/
def cancel (a : DoAfterAgenda ε) (id : DoAfterId) : Bool × DoAfterAgenda ε :=
  let (found, rest) := a.take id
  (found.isSome, rest)

/-- Ends a do-after: takes it off the list and applies outcomes to its event, in order. -/
def finish (a : DoAfterAgenda DoAfterEvent) (id : DoAfterId) (outcomes : List DoAfterOutcome) :
    Option DoAfterEvent × DoAfterAgenda DoAfterEvent :=
  let (found, rest) := a.take id
  (found.map fun request => outcomes.foldl (fun event o => o.apply event) request.event, rest)

instance : DoAfterScheduler (DoAfterAgenda ε) ε where
  tryStart := tryStart
  cancel := cancel

end DoAfterAgenda

end Station
