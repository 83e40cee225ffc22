import Station.Entity

/-!
# Minds

A mind is a player's character apart from the body it owns: its name and the jobs it holds, in the
order in which it took them. A mind never holds a job twice.
-/

namespace Station

/-- A mind. -/
structure Mind where
  /-- The id, which alone decides whether two minds are the same. -/
  id : MindId
  /-- The name of the character. -/
  characterName : String
  /-- The jobs held, oldest first. -/
  jobs : List JobId := []
  /-- The body, if any. -/
  ownedEntity : Option EntityUid := none
  deriving DecidableEq, Repr, Inhabited

namespace Mind

/-- Two records of one id are records of the same mind. -/
def same (a b : Mind) : Bool := a.id == b.id

/-- Whether a job is held. -/
def hasJob (m : Mind) (job : JobId) : Bool := m.jobs.any (· == job)

/-- Takes a job; one that is held already stays where it is. -/
def assign (m : Mind) (job : JobId) : Mind :=
  if m.hasJob job then m else { m with jobs := m.jobs ++ [job] }

/-- Takes several jobs, in order. -/
def assignAll (m : Mind) (jobs : List JobId) : Mind := jobs.foldl assign m

/-- Gives up a job, and says whether it was held. -/
def revoke (m : Mind) (job : JobId) : Bool × Mind :=
  let kept := m.jobs.filter (· != job)
  (kept.length != m.jobs.length, { m with jobs := kept })

/-- Moves into a body, or out of it. -/
def own (m : Mind) (body : Option EntityUid) : Mind := { m with ownedEntity := body }

end Mind

end Station
