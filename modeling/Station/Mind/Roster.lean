import Station.Mind
import Station.Table

/-!
# The roster of minds

The roster keeps the last saved record of each mind and lists them by ascending id.
-/

namespace Station

/-- The saved minds. -/
structure MindRoster where
  /-- The last record of each mind. -/
  minds : Table MindId Mind := .empty
  deriving Inhabited

namespace MindRoster

/-- Stores a record, in the place of an older one of the same mind. -/
def save (r : MindRoster) (m : Mind) : MindRoster := ⟨r.minds.insert m.id m⟩

/-- Drops the record of a mind. -/
def delete (r : MindRoster) (id : MindId) : MindRoster := ⟨r.minds.erase id⟩

/-- The record of a mind. -/
def find? (r : MindRoster) (id : MindId) : Option Mind := r.minds.get? id

/-- All records, by ascending id. -/
def list (r : MindRoster) : List Mind := r.minds.rows.map (·.2)

/-- The records of the minds that hold a job, by ascending id. -/
def withJob (r : MindRoster) (job : JobId) : List Mind := r.list.filter (·.hasJob job)

/-- The number of records. -/
def count (r : MindRoster) : Nat := r.minds.size

/-- Whether a mind holds a job; a mind without a record holds none. -/
def holds (r : MindRoster) (mind : MindId) (job : JobId) : Bool :=
  match r.find? mind with
  | some record => record.hasJob job
  | none => false

end MindRoster

end Station
