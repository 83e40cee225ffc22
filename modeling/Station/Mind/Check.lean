import Station.Mind.Filter
import Station.Mind.Roster

/-!
# Checking a mind

What a filter of some jobs says about a mind that holds some jobs.
-/

namespace Station

/-- The outcome of a check. -/
structure MindCheck where
  /-- The jobs that the mind was given. -/
  jobs : List JobId
  /-- The jobs that the filter lists. -/
  blacklist : List JobId
  /-- Whether the mind is turned away. -/
  shouldRemove : Bool
  /-- Whether the mind passes. -/
  isAllowed : Bool
  deriving DecidableEq, Repr, Inhabited

/-- Checks a mind that is saved nowhere else. -/
def MindCheck.of (jobs blacklist : List JobId) : MindCheck :=
  let mind : Mind := { id := "cli", characterName := "cli" }
  let roster := ({} : MindRoster).save (mind.assignAll jobs)
  let filter : MindFilter := ⟨blacklist⟩
  { jobs, blacklist
    shouldRemove := filter.shouldRemove roster.holds mind.id
    isAllowed := filter.isAllowed roster.holds mind.id }

end Station
